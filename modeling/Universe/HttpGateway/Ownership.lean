import Universe.HttpGateway.Closing

/-!
# The connections the gateway closes

Two maps pair the clients with the connections to their providers.  `Owned`
says that they agree with each other and with what is open.  It is kept by
every event but three: a response after which the client stays, because
`close_remote` does not erase the pair of the client; a connection that fails
before `connect` returns, because the pair is made afterwards; and a request
that cannot be written to a connection that was just made.
-/

namespace Universe

open Incremental
open Std (ExtTreeMap)

namespace HttpGateway

namespace Network

variable {world : Surroundings} {close : Fd → M Bool} {s : Network}
  {client remoteFd : Fd} {depth : Nat}

/-- A connection for a client, or one that is being made. -/
def Serves (s : Network) (remoteFd client : Fd) : Prop :=
  s.roles[remoteFd]? = some (.connecting client) ∨
    s.roles[remoteFd]? = some (.remote client)

/-- The maps agree with each other and with the open connections. -/
structure Owned (s : Network) : Prop where
  pair : ∀ {client remoteFd : Fd}, s.tables.c2r[client]? = some remoteFd →
    s.tables.r2c[remoteFd]? = some client ∧ s.Serves remoteFd client ∧
      s.roles[client]? = some .client ∧
      s.stateful[client]? = some .parseResponse ∧
      ∃ request target, s.tables.forwardInfo[client]? = some (request, target) ∧
        request.client = client
  serve : ∀ {client remoteFd : Fd}, s.Serves remoteFd client →
    s.tables.c2r[client]? = some remoteFd
  known : ∀ {client remoteFd : Fd}, s.tables.r2c[remoteFd]? = some client →
    s.tables.c2r[client]? = some remoteFd
  live : ∀ {fd : Fd} {role}, s.roles[fd]? = some role →
    fd ∈ s.opened ∧ fd ∉ s.released
  pending : s.released ⊆ s.opened

/-- A client gets a connection. -/
structure Pairs (client remoteFd : Fd) (s after : Network) : Prop where
  role : after.Serves remoteFd client
  roles : ∀ fd, fd ≠ remoteFd → after.roles[fd]? = s.roles[fd]?
  c2r : ∀ fd, after.tables.c2r[fd]? =
    if fd = client then some remoteFd else s.tables.c2r[fd]?
  r2c : ∀ fd, after.tables.r2c[fd]? =
    if fd = remoteFd then some client else s.tables.r2c[fd]?
  state : ∀ fd, after.stateful[fd]? =
    if fd = client then some .parseResponse else s.stateful[fd]?
  info : ∀ fd, fd ≠ client →
    after.tables.forwardInfo[fd]? = s.tables.forwardInfo[fd]?
  request : ∃ request target,
    after.tables.forwardInfo[client]? = some (request, target) ∧
      request.client = client
  opened : ∀ fd, fd ∈ after.opened ↔ fd = remoteFd ∨ fd ∈ s.opened
  released : after.released = s.released

namespace Owned

variable {after : Network} (owned : Owned s)
include owned

theorem free_role {fd : Fd} (free : s.Free fd) : s.roles[fd]? = none := by
  cases found : s.roles[fd]? with
  | none => rfl
  | some role => exact absurd (owned.live found).1 free.2

/-- Who has another client, is another connection. -/
theorem pair_apart {other otherFd : Fd}
    (isClient : s.roles[client]? = some .client)
    (partner : s.tables.c2r[client]? = none ∧ remoteFd = client ∨
      s.tables.c2r[client]? = some remoteFd)
    (paired : s.tables.c2r[other]? = some otherFd) (different : other ≠ client) :
    otherFd ≠ client ∧ otherFd ≠ remoteFd ∧ other ≠ remoteFd := by
  obtain ⟨known, serves, isOther, _⟩ := owned.pair paired
  have notClient : otherFd ≠ client := by
    rintro rfl
    rw [Serves, isClient] at serves
    simp at serves
  rcases partner with ⟨_, same⟩ | own
  · rw [same]
    exact ⟨notClient, notClient, different⟩
  · obtain ⟨ownKnown, ownServes, _⟩ := owned.pair own
    refine ⟨notClient, ?_, ?_⟩
    · rintro rfl
      rw [known] at ownKnown
      exact different (Option.some.inj ownKnown)
    · rintro rfl
      rw [Serves, isOther] at ownServes
      simp at ownServes

/-- A client leaves with the connection for it. -/
theorem leaves (left : Leaves client remoteFd s after)
    (isClient : s.roles[client]? = some .client)
    (partner : s.tables.c2r[client]? = none ∧ remoteFd = client ∨
      s.tables.c2r[client]? = some remoteFd) : Owned after := by
  have stays : ∀ {fd : Fd}, fd ≠ client → fd ≠ remoteFd →
      after.roles[fd]? = s.roles[fd]? := by
    intro fd apart elsewhere
    rw [left.roles, if_neg (by simp [apart, elsewhere])]
  have registered : ∀ {fd : Fd} {role}, after.roles[fd]? = some role →
      fd ≠ client ∧ fd ≠ remoteFd ∧ s.roles[fd]? = some role := by
    intro fd role found
    rw [left.roles] at found
    grind
  constructor
  · intro other otherFd paired
    rw [left.c2r] at paired
    have different : other ≠ client := by
      grind
    rw [if_neg different] at paired
    obtain ⟨known, serves, isOther, state, request, target, info, owner⟩ :=
      owned.pair paired
    obtain ⟨notClient, notRemote, apart⟩ :=
      owned.pair_apart isClient partner paired different
    refine ⟨?_, ?_, ?_, ?_, request, target, ?_, owner⟩
    · rw [left.r2c, if_neg fun same => notRemote same.1]
      exact known
    · rw [Serves, stays notClient notRemote]
      exact serves
    · rw [stays different apart]
      exact isOther
    · rw [left.state other different]
      exact state
    · rw [left.info other different]
      exact info
  · intro other otherFd serves
    have before : otherFd ≠ client ∧ otherFd ≠ remoteFd ∧
        s.Serves otherFd other := by
      rcases serves with connects | serves
      · obtain ⟨apart, elsewhere, found⟩ := registered connects
        exact ⟨apart, elsewhere, .inl found⟩
      · obtain ⟨apart, elsewhere, found⟩ := registered serves
        exact ⟨apart, elsewhere, .inr found⟩
    obtain ⟨apart, elsewhere, serves⟩ := before
    have paired := owned.serve serves
    have different : other ≠ client := by
      rintro rfl
      rcases partner with ⟨none, _⟩ | own
      · rw [none] at paired
        cases paired
      · rw [own] at paired
        exact elsewhere (Option.some.inj paired).symm
    rw [left.c2r, if_neg different]
    exact paired
  · intro other otherFd known
    rw [left.r2c] at known
    have elsewhere : ¬ (otherFd = remoteFd ∧ remoteFd ≠ client) := by
      intro same
      rw [if_pos same] at known
      cases known
    rw [if_neg elsewhere] at known
    have paired := owned.known known
    have different : other ≠ client := by
      rintro rfl
      rcases partner with ⟨none, _⟩ | own
      · rw [none] at paired
        cases paired
      · have same := Option.some.inj (own.symm.trans paired)
        refine elsewhere ⟨same.symm, ?_⟩
        rintro rfl
        obtain ⟨_, serves, _⟩ := owned.pair own
        rw [Serves, isClient] at serves
        simp at serves
    rw [left.c2r, if_neg different]
    exact paired
  · intro fd role found
    obtain ⟨apart, elsewhere, found⟩ := registered found
    obtain ⟨isOpen, kept⟩ := owned.live found
    refine ⟨left.opened isOpen, ?_⟩
    intro member
    rcases left.released fd member with earlier | own | other | fresh
    · exact kept earlier
    · exact apart own
    · exact elsewhere other
    · exact fresh.1 isOpen
  · intro fd member
    rcases left.released fd member with earlier | rfl | rfl | fresh
    · exact left.opened (owned.pending earlier)
    · exact left.opened (owned.live isClient).1
    · rcases partner with ⟨_, rfl⟩ | own
      · exact left.opened (owned.live isClient).1
      · obtain ⟨_, serves, _⟩ := owned.pair own
        rcases serves with found | found
        · exact left.opened (owned.live found).1
        · exact left.opened (owned.live found).1
    · exact fresh.2

/-- A client without a connection gets one with a new number. -/
theorem pairs (pairs : Pairs client remoteFd s after)
    (isClient : s.roles[client]? = some .client)
    (unpaired : s.tables.c2r[client]? = none) (free : s.Free remoteFd) :
    Owned after := by
  have vacant := owned.free_role free
  have apart : client ≠ remoteFd := by
    rintro rfl
    rw [isClient] at vacant
    cases vacant
  have elsewhere : ∀ {fd other : Fd}, s.Serves fd other → fd ≠ remoteFd := by
    rintro fd other serves rfl
    rw [Serves, vacant] at serves
    simp at serves
  constructor
  · intro other otherFd paired
    rw [pairs.c2r] at paired
    by_cases own : other = client
    · subst own
      rw [if_pos rfl] at paired
      cases paired
      refine ⟨?_, pairs.role, ?_, ?_, pairs.request⟩
      · rw [pairs.r2c, if_pos rfl]
      · rw [pairs.roles _ apart]
        exact isClient
      · rw [pairs.state, if_pos rfl]
    · rw [if_neg own] at paired
      obtain ⟨known, serves, isOther, state, request, target, info, owner⟩ :=
        owned.pair paired
      have different := elsewhere serves
      have notRemote : other ≠ remoteFd := by
        rintro rfl
        rw [isOther] at vacant
        cases vacant
      refine ⟨?_, ?_, ?_, ?_, request, target, ?_, owner⟩
      · rw [pairs.r2c, if_neg different]
        exact known
      · rw [Serves, pairs.roles _ different]
        exact serves
      · rw [pairs.roles _ notRemote]
        exact isOther
      · rw [pairs.state, if_neg own]
        exact state
      · rw [pairs.info _ own]
        exact info
  · intro other otherFd serves
    by_cases here : otherFd = remoteFd
    · subst here
      have same : other = client := by
        rcases pairs.role with own | own <;>
          rcases serves with also | also <;>
          · rw [own] at also
            cases also
            try rfl
      rw [pairs.c2r, if_pos same]
    · rw [Serves, pairs.roles _ here] at serves
      have paired := owned.serve serves
      have different : other ≠ client := by
        rintro rfl
        rw [unpaired] at paired
        cases paired
      rw [pairs.c2r, if_neg different]
      exact paired
  · intro other otherFd known
    rw [pairs.r2c] at known
    by_cases here : otherFd = remoteFd
    · rw [if_pos here] at known
      cases known
      rw [pairs.c2r, if_pos rfl, here]
    · rw [if_neg here] at known
      have paired := owned.known known
      have different : other ≠ client := by
        rintro rfl
        rw [unpaired] at paired
        cases paired
      rw [pairs.c2r, if_neg different]
      exact paired
  · intro fd role found
    rw [pairs.opened, pairs.released]
    by_cases here : fd = remoteFd
    · refine ⟨.inl here, fun member => ?_⟩
      rw [here] at member
      exact free.2 (owned.pending member)
    · rw [pairs.roles _ here] at found
      obtain ⟨isOpen, kept⟩ := owned.live found
      exact ⟨.inr isOpen, kept⟩
  · intro fd member
    rw [pairs.released] at member
    exact (pairs.opened fd).mpr (.inr (owned.pending member))

/-- A new client has no connection. -/
theorem accepts (free : s.Free client) :
    Owned { (s.openFd client).setRole client .client with
      stateful := s.stateful.setState client .parseRequest } := by
  have vacant := owned.free_role free
  have other : ∀ {fd : Fd} {role}, s.roles[fd]? = some role → fd ≠ client := by
    rintro fd role found rfl
    rw [found] at vacant
    cases vacant
  have stays : ∀ {fd : Fd} {role}, s.roles[fd]? = some role →
      (s.roles.insert client .client)[fd]? = some role := by
    intro fd role found
    simp [ExtTreeMap.getElem?_insert, Ne.symm (other found), found]
  have before : ∀ {fd : Fd} {role}, role ≠ .client →
      (s.roles.insert client .client)[fd]? = some role →
        s.roles[fd]? = some role := by
    intro fd role different found
    rw [ExtTreeMap.getElem?_insert] at found
    grind
  constructor
  · intro own remoteFd paired
    obtain ⟨known, serves, isClient, state, info⟩ := owned.pair paired
    refine ⟨known, ?_, stays isClient, ?_, info⟩
    · rcases serves with found | found
      · exact .inl (stays found)
      · exact .inr (stays found)
    · simp only [Stateful.getElem?_setState, if_neg (Ne.symm (other isClient))]
      exact state
  · intro own remoteFd serves
    apply owned.serve
    rcases serves with found | found
    · exact .inl (before Role.noConfusion found)
    · exact .inr (before Role.noConfusion found)
  · exact owned.known
  · intro fd role found
    by_cases same : fd = client
    · subst same
      exact ⟨List.mem_cons_self, fun member => free.2 (owned.pending member)⟩
    · have found : s.roles[fd]? = some role := by
        simpa [openFd, roles_setRole, Ne.symm same]
          using found
      obtain ⟨isOpen, kept⟩ := owned.live found
      exact ⟨List.mem_cons_of_mem _ isOpen, kept⟩
  · intro fd member
    exact List.mem_cons_of_mem _ (owned.pending member)

/-- The connection for a client has been made. -/
theorem connects (connects : s.roles[remoteFd]? = some (.connecting client)) :
    Owned (s.setRole remoteFd (.remote client)) := by
  have same : ∀ {fd other : Fd},
      (s.setRole remoteFd (.remote client)).Serves fd other ↔
        s.Serves fd other := by
    intro fd other
    by_cases here : fd = remoteFd
    · subst here
      simp [Serves, setRole, connects]
    · simp [Serves, roles_setRole, Ne.symm here]
  constructor
  · intro own otherFd paired
    obtain ⟨known, serves, isClient, state, info⟩ := owned.pair paired
    refine ⟨known, same.mpr serves, ?_, state, info⟩
    have apart : own ≠ remoteFd := by
      rintro rfl
      rw [connects] at isClient
      cases isClient
    simpa [roles_setRole, Ne.symm apart] using isClient
  · intro own otherFd serves
    exact owned.serve (same.mp serves)
  · exact owned.known
  · intro fd role found
    by_cases here : fd = remoteFd
    · subst here
      exact owned.live connects
    · have found : s.roles[fd]? = some role := by
        simpa [roles_setRole, Ne.symm here] using found
      exact owned.live found
  · exact owned.pending

/-- What has been released is closed. -/
theorem flushed :
    Owned { s with
      opened := s.opened.filter fun fd => fd ∉ s.released
      released := [] } := by
  refine ⟨owned.pair, owned.serve, owned.known, ?_, List.nil_subset _⟩
  intro fd role found
  obtain ⟨isOpen, kept⟩ := owned.live found
  exact ⟨List.mem_filter.mpr ⟨isOpen, by simpa using kept⟩, List.not_mem_nil⟩

end Owned

/-- Nothing is closed but a client and the connections for it. -/
def Closes (client : Fd) (s after : Network) : Prop :=
  ∀ fd, s.roles[fd]? ≠ none → after.roles[fd]? = none →
    fd = client ∨ s.Serves fd client

/-- A callback for a client returns, or ends the process. -/
def Returns (client : Fd) (s : Network)
    (result : EStateM.Result Stop Network Unit) : Prop :=
  (∃ after, result = .ok () after ∧ Owned after ∧ Closes client s after) ∨
    ∃ stopped, result = .error .exit stopped

theorem Returns.of_eq {result same : EStateM.Result Stop Network Unit}
    (equal : result = same) (returns : Returns client s same) :
    Returns client s result := by
  rw [equal]
  exact returns

theorem Leaves.closes {after : Network} (owned : Owned s)
    (left : Leaves client remoteFd s after)
    (partner : s.tables.c2r[client]? = none ∧ remoteFd = client ∨
      s.tables.c2r[client]? = some remoteFd) : Closes client s after := by
  intro fd registered gone
  rw [left.roles] at gone
  have either : fd = client ∨ fd = remoteFd := by
    by_contra neither
    rw [if_neg neither] at gone
    exact registered gone
  rcases either with own | other
  · exact .inl own
  · rcases partner with ⟨_, same⟩ | paired
    · exact .inl (other.trans same)
    · rw [other]
      exact .inr (owned.pair paired).2.1

theorem Leaves.returns {after : Network} (owned : Owned s)
    (left : Leaves client remoteFd s after)
    (isClient : s.roles[client]? = some .client)
    (partner : s.tables.c2r[client]? = none ∧ remoteFd = client ∨
      s.tables.c2r[client]? = some remoteFd) :
    Returns client s (.ok () after) :=
  .inl ⟨after, rfl, owned.leaves left isClient partner,
    left.closes owned partner⟩

theorem Pairs.returns {after : Network} (owned : Owned s)
    (pairs : Pairs client remoteFd s after)
    (isClient : s.roles[client]? = some .client)
    (unpaired : s.tables.c2r[client]? = none) (free : s.Free remoteFd) :
    Returns client s (.ok () after) := by
  refine .inl ⟨after, rfl, owned.pairs pairs isClient unpaired free, ?_⟩
  intro fd registered gone
  have elsewhere : fd ≠ remoteFd := by
    rintro rfl
    exact registered (owned.free_role free)
  rw [pairs.roles fd elsewhere] at gone
  exact absurd gone registered

/-- The client is paired with a socket that was just opened. -/
theorem pairs_opened {between : Network} (prepares : Prepares client s between)
    {request : HttpRequest} {target : HttpProviderAddress}
    (info : between.tables.forwardInfo[client]? = some (request, target))
    (owner : request.client = client)
    (state : between.stateful[client]? = some .parseResponse)
    (opened : between.opened = s.opened) (released : between.released = s.released)
    {fd : Fd} {role : Role} (serves : role = .connecting client ∨
      role = .remote client) :
    Pairs client fd s { (between.openFd fd).setRole fd role with
      tables := Tables.pair client fd between.tables } := by
  constructor
  · rcases serves with rfl | rfl
    · exact .inl (by simp [setRole])
    · exact .inr (by simp [setRole])
  · intro other different
    simp [setRole, openFd, ExtTreeMap.getElem?_insert, Ne.symm different,
      prepares.roles]
  · intro other
    grind [Tables.pair, prepares.c2r]
  · intro other
    grind [Tables.pair, prepares.r2c]
  · intro other
    change between.stateful[other]? = _
    by_cases own : other = client
    · rw [if_pos own, own, state]
    · rw [if_neg own, prepares.state other own]
  · intro other different
    exact prepares.info other different
  · exact ⟨request, target, info, owner⟩
  · intro other
    simp [setRole, openFd, opened]
  · exact released

section Forwarding

variable {between : Network} (owned : Owned s)
  (prepares : Prepares client s between)
  (isClient : s.roles[client]? = some .client)
  (unpaired : s.tables.c2r[client]? = none)
include owned prepares isClient unpaired

/-- A client without a connection is closed. -/
theorem close_returns (world : Surroundings) (depth : Nat) :
    ∃ after, closing world (depth + 1) client between = .ok true after ∧
      Returns client s (.ok () after) := by
  obtain ⟨after, closed, leaves⟩ := closing_alone world depth
    (by rw [prepares.roles]; exact isClient)
    (by rw [prepares.c2r]; exact unpaired)
  exact ⟨after, closed, (leaves.prepared prepares).returns owned isClient
    (.inl ⟨unpaired, rfl⟩)⟩

/-- A connection that cannot be made closes its client. -/
theorem refused_returns (world : Surroundings) (depth : Nat) (fd : Fd) :
    ∃ after, onRemoteConnect (quietHost world (closing world (depth + 1))) fd .ng
        client between = .ok () after ∧
      Returns client s (.ok () after) := by
  obtain ⟨after, closed, returns⟩ :=
    close_returns owned prepares isClient unpaired world depth
  exact ⟨after, Environment.onRemoteConnect_failed (by decide) closed, returns⟩

/-- The connection for a request that was read. -/
theorem connect_returns (world : Surroundings) (depth : Nat)
    {request : HttpRequest} {target : HttpProviderAddress}
    (info : between.tables.forwardInfo[client]? = some (request, target))
    (owner : request.client = client)
    (state : between.stateful[client]? = some .parseResponse)
    (opened : between.opened = s.opened) (released : between.released = s.released)
    (usable : s.Usable world) (possible : ∀ fd, world.attempt ≠ .failing fd) :
    Returns client s ((do
      let remoteFd ← connecting world (depth + 1) target client
      if remoteFd = -1 then return ()
      else modifyTables (hostWith world (closing world (depth + 1))
        (connecting world (depth + 1))) (Tables.pair client remoteFd)) between) := by
  cases attempt : world.attempt with
  | unresolved =>
      have undefined : connecting world (depth + 1) target client between =
          .error .exit between :=
        Environment.connecting_unresolved attempt
      exact Returns.of_eq (Stepwise.bind_of_error undefined) (.inr ⟨_, rfl⟩)
  | insecure fd =>
      have free := usable fd (by rw [attempt]; rfl)
      have prepares' : Prepares client s ((between.openFd fd).release fd) := by
        refine ⟨prepares.roles, prepares.c2r, prepares.r2c, prepares.state,
          prepares.info, ?_, ?_⟩
        · intro other before
          exact List.mem_cons_of_mem _ (prepares.opened before)
        · intro other member
          rcases List.mem_append.mp member with earlier | last
          · rw [show (between.openFd fd).released = s.released from released]
              at earlier
            exact .inl earlier
          · cases List.mem_singleton.mp last
            exact .inr ⟨free.2, List.mem_cons_self⟩
      obtain ⟨after, told, returns⟩ :=
        refused_returns owned prepares' isClient unpaired world depth (-1)
      have connected : connecting world (depth + 1) target client between =
          .ok (-1) after :=
        Environment.connecting_insecure attempt told
      rw [Stepwise.bind_of_ok connected]
      exact returns
  | failing fd => exact absurd attempt (possible fd)
  | pending fd =>
      have free := usable fd (by rw [attempt]; rfl)
      have valid : fd ≠ -1 := by
        rintro rfl
        exact absurd free.1 (by decide)
      have connected : connecting world (depth + 1) target client between =
          .ok fd ((between.openFd fd).setRole fd (.connecting client)) :=
        Environment.connecting_pending attempt
      rw [Stepwise.bind_of_ok connected, if_neg valid]
      exact (pairs_opened prepares info owner state opened
        released (.inl rfl)).returns owned isClient unpaired free
  | immediate fd =>
      have free := usable fd (by rw [attempt]; rfl)
      have valid : fd ≠ -1 := by
        rintro rfl
        exact absurd free.1 (by decide)
      cases printed : request.forwardPacket target with
      | none =>
          have told : onRemoteConnect (quietHost world
              (closing world (depth + 1))) fd .ok client (between.openFd fd) =
                .error .exit (between.openFd fd) :=
            Environment.onRemoteConnect_stops info printed
          have connected : connecting world (depth + 1) target client between =
              .error .exit (between.openFd fd) :=
            Environment.connecting_stops attempt told
          rw [Stepwise.bind_of_error connected]
          exact .inr ⟨_, rfl⟩
      | some packet =>
          have told : onRemoteConnect (quietHost world
              (closing world (depth + 1))) fd .ok client (between.openFd fd) =
                .ok () (between.openFd fd) := by
            refine onRemoteConnect_writes info printed (.inl ?_)
            change between.roles[fd]? = none
            rw [prepares.roles]
            exact owned.free_role free
          have connected : connecting world (depth + 1) target client between =
              .ok fd ((between.openFd fd).setRole fd (.remote client)) :=
            Environment.connecting_immediate attempt told
          rw [Stepwise.bind_of_ok connected, if_neg valid]
          exact (pairs_opened prepares info owner state
            opened released (.inr rfl)).returns owned isClient unpaired free

/-- A request that was read is forwarded, or its client is closed. -/
theorem forward_returns (world : Surroundings) (depth : Nat) {r : HttpRequest}
    (owner : r.client = client)
    (state : between.stateful[client]? = some .parseResponse)
    (opened : between.opened = s.opened) (released : between.released = s.released)
    (usable : s.Usable world) (possible : (world.onRequestUri r).2.2 = true →
      ∀ fd, world.attempt ≠ .failing fd) :
    Returns client s (forward (hostWith world (closing world (depth + 1))
      (connecting world (depth + 1))) client r between) := by
  rcases handled : world.onRequestUri r with ⟨request, target, ok⟩
  have requester : request.client = client := by
    have kept := world.requestClient r
    rw [handled] at kept
    exact kept.trans owner
  have fired : (hostWith world (closing world (depth + 1))
      (connecting world (depth + 1))).fireRequestUri r between =
        .ok (request, target, ok) between :=
    congrArg (EStateM.Result.ok · between) handled
  unfold forward
  rw [Stepwise.bind_of_ok fired]
  cases ok with
  | false =>
      obtain ⟨after, closed, returns⟩ :=
        close_returns owned prepares isClient unpaired world depth
      have ended : (do
          let _ ← (hostWith world (closing world (depth + 1))
            (connecting world (depth + 1))).close client
          return () : M Unit) between = .ok () after :=
        Stepwise.bind_of_ok closed
      change Returns client s ((do
          let _ ← (hostWith world (closing world (depth + 1))
            (connecting world (depth + 1))).close client
          return () : M Unit) between)
      rw [ended]
      exact returns
  | true =>
      have prepares' : Prepares client s { between with
          tables := Tables.setInfo client (request, target) between.tables } := by
        refine ⟨prepares.roles, prepares.c2r, prepares.r2c, prepares.state, ?_,
          prepares.opened, prepares.released⟩
        intro fd different
        have before := prepares.info fd different
        grind [Tables.setInfo]
      have info : (Tables.setInfo client (request, target)
          between.tables).forwardInfo[client]? = some (request, target) := by
        simp [Tables.setInfo]
      exact connect_returns owned prepares' isClient unpaired world depth info
        requester state opened released usable (possible (by rw [handled]))

end Forwarding

theorem Owned.buffers (owned : Owned s) (bufferable : Bufferable) :
    Owned { s with bufferable } :=
  ⟨owned.pair, owned.serve, owned.known, owned.live, owned.pending⟩

theorem returns_buffered (owned : Owned s) (client : Fd)
    (bufferable : Bufferable) :
    Returns client s (.ok () { s with bufferable }) := by
  refine .inl ⟨_, rfl, owned.buffers bufferable, ?_⟩
  intro fd registered gone
  exact absurd gone registered

/-- The steps after which the maps still agree: a connection does not fail
before `connect` returns, the request is written to a new connection without
`EPIPE`, and a client that gets a response does not stay. -/
def Meets (s : Network) : Event → Prop
  | .message client piece world => ∀ r rest,
      s.stateful.getState client ≠ .parseResponse →
      Http.parseRequest client ((s.bufferable[client]?).getD [] ++ piece) =
        .ok (r, rest) →
      (world.onRequestUri r).2.2 = true → ∀ fd, world.attempt ≠ .failing fd
  | .connected remoteFd world => remoteFd ∉ world.broken
  | .remoteMessage remoteFd piece world =>
      ∀ client read rest request target,
        s.roles[remoteFd]? = some (.remote client) → client ∉ world.broken →
        parseResponse ((s.bufferable[remoteFd]?).getD [] ++ piece) =
          .ok (some read, rest) →
        s.tables.forwardInfo[client]? = some (request, target) →
          Http.verdict (world.onResponse request read).1 ≠ .opened
  | _ => True

/-- A message of a client. -/
theorem onMessage_returns (owned : Owned s) (world : Surroundings) (depth : Nat)
    (piece : Bytes) (isClient : s.roles[client]? = some .client)
    (usable : s.Usable world)
    (possible : s.Meets (.message client piece world)) :
    Returns client s (onMessage (hostWith world (closing world (depth + 1))
      (connecting world (depth + 1))) client piece s) := by
  by_cases waits : s.stateful.getState client = .parseResponse
  · have waiting : onMessage (hostWith world (closing world (depth + 1))
        (connecting world (depth + 1))) client piece s = .ok () _ :=
      Environment.onMessage_kept (.inl waits)
    rw [waiting]
    exact returns_buffered owned client _
  · have unpaired : s.tables.c2r[client]? = none := by
      cases paired : s.tables.c2r[client]? with
      | none => rfl
      | some remoteFd =>
          have state := (owned.pair paired).2.2.2.1
          exact absurd (by simp [Stateful.getState, state]) waits
    cases parsed : Http.parseRequest client
        ((s.bufferable[client]?).getD [] ++ piece) with
    | error stop =>
        cases stop with
        | ag =>
            have waiting : onMessage (hostWith world (closing world (depth + 1))
                (connecting world (depth + 1))) client piece s = .ok () _ :=
              Environment.onMessage_kept (.inr parsed)
            rw [waiting]
            exact returns_buffered owned client _
        | ng =>
            have prepares : Prepares client s { s with
                bufferable := (s.bufferable.appendBuf client piece).2 } :=
              ⟨rfl, rfl, rfl, fun _ _ => rfl, fun _ _ => rfl,
                List.Subset.refl _, fun _ member => .inl member⟩
            obtain ⟨after, closed, returns⟩ :=
              close_returns owned prepares isClient unpaired world depth
            have ended : onMessage (hostWith world (closing world (depth + 1))
                (connecting world (depth + 1))) client piece s = .ok () after :=
              Environment.onMessage_closes waits parsed closed
            rw [ended]
            exact returns
    | ok read =>
        obtain ⟨r, rest⟩ := read
        have owner : r.client = client :=
          Http.parseRequest_client client _ _ _ parsed
        have prepares : Prepares client s
            { s with toKept := Kept.reading client piece rest s.toKept } := by
          refine ⟨rfl, rfl, rfl, ?_, fun _ _ => rfl, List.Subset.refl _,
            fun _ member => .inl member⟩
          intro fd different
          simp [Kept.reading, Ne.symm different]
        have forwards : onMessage (hostWith world (closing world (depth + 1))
            (connecting world (depth + 1))) client piece s = forward (hostWith
              world (closing world (depth + 1)) (connecting world (depth + 1)))
              client r
              { s with toKept := Kept.reading client piece rest s.toKept } :=
          Environment.onMessage_forwards waits parsed
        rw [forwards]
        exact forward_returns owned prepares isClient unpaired world depth owner
          (by simp [Kept.reading]) rfl rfl usable (possible r rest waits parsed)

theorem closeIfNecessary_throws {connect : HttpProviderAddress → Fd → M Fd}
    {r : HttpRequest} (throws : Http.verdict r = .crashed) (s : Network) :
    Http.closeIfNecessary (hostWith world close connect).toHost r s =
      .error .exit s := by
  rw [Http.closeIfNecessary_crashed _ throws]
  rfl

/-- A response after which its client is closed. -/
theorem respond_returns (owned : Owned s) (world : Surroundings) (depth : Nat)
    {read : HttpResponse} {connect : HttpProviderAddress → Fd → M Fd}
    (serves : s.roles[remoteFd]? = some (.remote client))
    (ends : client ∉ world.broken → ∀ request target,
      s.tables.forwardInfo[client]? = some (request, target) →
        Http.verdict (world.onResponse request read).1 ≠ .opened) :
    Returns client s (respond (hostWith world (closing world (depth + 2)) connect)
      remoteFd client read s) := by
  have paired := owned.serve (.inr serves)
  obtain ⟨_, _, isClient, _, request, target, info, owner⟩ := owned.pair paired
  rcases handled : world.onResponse request read with ⟨left, response⟩
  have leftOwner : left.client = client := by
    have kept := world.responseClient request read
    rw [handled] at kept
    exact kept.trans owner
  have prepares : Prepares client s { s with
      tables := Tables.setInfo client (left, target) s.tables } := by
    refine ⟨rfl, rfl, rfl, fun _ _ => rfl, ?_, List.Subset.refl _,
      fun _ member => .inl member⟩
    intro fd different
    grind [Tables.setInfo]
  obtain ⟨after, closed, leaves, erased⟩ := closing_client_remote world depth
    (s := { s with tables := Tables.setInfo client (left, target) s.tables })
    isClient paired serves
  have fired : (environment world).fireResponse request read s =
      .ok (left, response) s :=
    congrArg (EStateM.Result.ok · s) handled
  by_cases broken : client ∈ world.broken
  · -- The client is closed by the write, and its request is forgotten.
    have wrote : writing world (closing world (depth + 2)) client
        response.toBytes { s with
          tables := Tables.setInfo client (left, target) s.tables } =
        .ok (-1) after := by
      unfold writing
      rw [if_pos broken]
      exact Stepwise.bind_of_ok closed
    have blank : after.tables.info client = (default, { after.tables with
        forwardInfo := after.tables.forwardInfo.insert client default }) := by
      simp [Tables.info, erased]
    have second : (hostWith world (closing world (depth + 2)) connect).tables
        (Tables.info client) after = .ok default { after with
          tables := { after.tables with
            forwardInfo := after.tables.forwardInfo.insert client default } } := by
      simp only [Environment.host, environment, Stepwise.modifyGet_eq, blank]
    apply Returns.of_eq (Environment.respond_eq info fired wrote)
    apply Returns.of_eq (Stepwise.bind_of_ok second)
    exact Returns.of_eq
      (Stepwise.bind_of_error (closeIfNecessary_throws (by decide) _))
      (.inr ⟨_, rfl⟩)
  · have wrote : writing world (closing world (depth + 2)) client
        response.toBytes { s with
          tables := Tables.setInfo client (left, target) s.tables } =
        .ok (response.toBytes.length : Int) { s with
          tables := Tables.setInfo client (left, target) s.tables } := by
      unfold writing
      rw [if_neg broken]
      rfl
    have informed : (Tables.setInfo client (left, target)
        s.tables).forwardInfo[client]? = some (left, target) := by
      simp [Tables.setInfo]
    apply Returns.of_eq (Environment.respond_eq info fired wrote)
    apply Returns.of_eq
      (Stepwise.bind_of_ok (Environment.info_held informed))
    cases reached : Http.verdict left with
    | opened =>
        have closes := ends broken request target info
        rw [handled] at closes
        exact absurd reached closes
    | closed =>
        have ended : Http.closeIfNecessary (hostWith world
            (closing world (depth + 2)) connect).toHost left { s with
              tables := Tables.setInfo client (left, target) s.tables } =
            .ok true after := by
          rw [Http.closeIfNecessary_closed _ reached, leftOwner]
          exact Stepwise.bind_of_ok closed
        apply Returns.of_eq (Stepwise.bind_of_ok ended)
        exact (leaves.prepared prepares).returns owned isClient (.inr paired)
    | crashed =>
        exact Returns.of_eq
          (Stepwise.bind_of_error (closeIfNecessary_throws reached _))
          (.inr ⟨_, rfl⟩)

/-- A message of a provider, unless it is the response to a request whose
client stays. -/
theorem onRemoteMessage_returns (owned : Owned s) (world : Surroundings)
    (depth : Nat) (piece : Bytes) {connect : HttpProviderAddress → Fd → M Fd}
    (serves : s.roles[remoteFd]? = some (.remote client))
    (meets : s.Meets (.remoteMessage remoteFd piece world)) :
    Returns client s (onRemoteMessage (hostWith world
      (closing world (depth + 2)) connect) remoteFd piece client s) := by
  have paired := owned.serve (.inr serves)
  obtain ⟨known, _, isClient, _⟩ := owned.pair paired
  have prepares : Prepares client s { s with
      bufferable := (s.bufferable.appendBuf remoteFd piece).2 } :=
    ⟨rfl, rfl, rfl, fun _ _ => rfl, fun _ _ => rfl,
      List.Subset.refl _, fun _ member => .inl member⟩
  cases parsed : parseResponse ((s.bufferable[remoteFd]?).getD [] ++ piece) with
  | error stop =>
      cases stop with
      | ag =>
          have waiting : onRemoteMessage (hostWith world
              (closing world (depth + 2)) connect) remoteFd piece client s =
                .ok () _ :=
            Environment.onRemoteMessage_kept parsed
          rw [waiting]
          exact returns_buffered owned client _
      | ng =>
          obtain ⟨after, closed, leaves⟩ := closing_provider world depth
            (s := { s with
              bufferable := (s.bufferable.appendBuf remoteFd piece).2 })
            isClient paired known serves
          have ended : onRemoteMessage (hostWith world
              (closing world (depth + 2)) connect) remoteFd piece client s =
                .ok () after :=
            Environment.onRemoteMessage_closes parsed closed
          rw [ended]
          exact (leaves.prepared prepares).returns owned isClient (.inr paired)
  | ok result =>
      obtain ⟨response, rest⟩ := result
      cases response with
      | none => exact .inr ⟨_, Environment.onRemoteMessage_stops parsed⟩
      | some read =>
          have responds : onRemoteMessage (hostWith world
              (closing world (depth + 2)) connect) remoteFd piece client s =
                respond (hostWith world (closing world (depth + 2)) connect)
                  remoteFd client read { s with
                    bufferable := (s.bufferable.appendBuf remoteFd piece).2 } :=
            Environment.onRemoteMessage_responds parsed
          rw [responds]
          apply respond_returns
            (owned.buffers (s.bufferable.appendBuf remoteFd piece).2) world depth
            serves
          intro intact request target info
          exact meets client read rest request target serves intact parsed info

theorem one_role {fd : Fd} {role : Role} (found : s.roles[fd]? = some role) :
    ∃ depth, s.roles.size = depth + 1 := by
  have some : s.roles.size ≠ 0 := by
    intro none
    rw [ExtTreeMap.eq_empty_iff_size_eq_zero.mpr none] at found
    simp at found
  exact ⟨s.roles.size - 1, by omega⟩

theorem two_roles {fd other : Fd} {first second : Role}
    (one : s.roles[fd]? = some first) (two : s.roles[other]? = some second)
    (apart : other ≠ fd) : ∃ depth, s.roles.size = depth + 2 := by
  have contained : s.roles.contains fd = true := by
    rw [ExtTreeMap.contains_eq_isSome_getElem?, one]
    rfl
  have still : (s.dropRole fd).roles[other]? = some second := by
    grind [dropRole]
  obtain ⟨depth, left⟩ := one_role still
  have fewer := ExtTreeMap.size_erase (t := s.roles) (k := fd)
  rw [if_pos contained] at fewer
  rw [dropRole, fewer] at left
  exact ⟨depth, by omega⟩

theorem setRole_setRole (fd : Fd) (first second : Role) :
    (s.setRole fd first).setRole fd second = s.setRole fd second := by
  have same : (s.roles.insert fd first).insert fd second =
      s.roles.insert fd second := by
    ext1 other
    by_cases here : fd = other
    · simp [here]
    · simp [ExtTreeMap.getElem?_insert, here]
  simp only [setRole, same]

/-- The client an event is about. -/
def Concerns (s : Network) (client : Fd) : Event → Prop
  | .accept other => other = client
  | .message other _ _ => other = client
  | .clientClosed other _ => other = client
  | .connected remoteFd _ => s.Serves remoteFd client
  | .connectFailed remoteFd _ => s.Serves remoteFd client
  | .remoteMessage remoteFd _ _ => s.Serves remoteFd client
  | .remoteClosed remoteFd _ => s.Serves remoteFd client
  | .flush => False

/-- What an event closes is its client or the connection for it. -/
def Spares (s : Network) (event : Event) (after : Network) : Prop :=
  ∀ fd, s.roles[fd]? ≠ none → after.roles[fd]? = none →
    ∃ client, s.Concerns client event ∧ (fd = client ∨ s.Serves fd client)

/-- The connection of a client is for it, and open. -/
def Agree (s : Network) : Prop :=
  ∀ client remoteFd, s.tables.c2r[client]? = some remoteFd →
    s.tables.r2c[remoteFd]? = some client ∧ s.Serves remoteFd client ∧
      remoteFd ∈ s.opened ∧ remoteFd ∉ s.released

section Steps

variable (owned : Owned s)
include owned

theorem Owned.agree : s.Agree := by
  intro client remoteFd paired
  obtain ⟨known, serves, _⟩ := owned.pair paired
  refine ⟨known, serves, ?_⟩
  rcases serves with connecting | remote
  · exact owned.live connecting
  · exact owned.live remote

theorem accept_returns (free : s.Free client) :
    Returns client s (perform (.accept client) s) := by
  refine .inl ⟨{ (s.openFd client).setRole client .client with
    stateful := s.stateful.setState client .parseRequest }, rfl,
    owned.accepts free, ?_⟩
  intro fd registered gone
  exfalso
  apply registered
  by_cases same : fd = client
  · rw [same]
    exact owned.free_role free
  · simpa [setRole, openFd, ExtTreeMap.getElem?_insert, Ne.symm same] using gone

theorem clientClosed_returns (world : Surroundings)
    (isClient : s.roles[client]? = some .client) :
    Returns client s (perform (.clientClosed client world) s) := by
  apply Returns.of_eq (Stepwise.get_bind _ _)
  cases paired : s.tables.c2r[client]? with
  | none =>
      obtain ⟨depth, size⟩ := one_role isClient
      obtain ⟨after, closed, leaves⟩ :=
        closing_alone world depth isClient paired
      rw [← size] at closed
      apply Returns.of_eq (Stepwise.bind_of_ok closed)
      exact leaves.returns owned isClient (.inl ⟨paired, rfl⟩)
  | some remoteFd =>
      obtain ⟨_, serves, _⟩ := owned.pair paired
      rcases serves with connects | serves
      · obtain ⟨depth, size⟩ := two_roles isClient connects (by
          rintro rfl
          rw [isClient] at connects
          cases connects)
        obtain ⟨after, closed, leaves⟩ :=
          closing_client_connecting world depth isClient paired connects
        rw [← size] at closed
        apply Returns.of_eq (Stepwise.bind_of_ok closed)
        exact leaves.returns owned isClient (.inr paired)
      · obtain ⟨depth, size⟩ := two_roles isClient serves (by
          rintro rfl
          rw [isClient] at serves
          cases serves)
        obtain ⟨after, closed, leaves, _⟩ :=
          closing_client_remote world depth isClient paired serves
        rw [← size] at closed
        apply Returns.of_eq (Stepwise.bind_of_ok closed)
        exact leaves.returns owned isClient (.inr paired)

theorem connected_returns {world : Surroundings}
    (connects : s.roles[remoteFd]? = some (.connecting client))
    (intact : remoteFd ∉ world.broken) :
    Returns client s (perform (.connected remoteFd world) s) := by
  obtain ⟨_, _, isClient, _, request, target, info, _⟩ :=
    owned.pair (owned.serve (.inl connects))
  have here : perform (.connected remoteFd world) s = (do
      onRemoteConnect (host world s) remoteFd .ok client
      modify (setRole remoteFd (.remote client))) (s.setRole remoteFd .bare) := by
    simp only [perform, Stepwise.get_bind, connects, Stepwise.modify_bind]
  rw [here]
  cases printed : request.forwardPacket target with
  | none =>
      have stopped : onRemoteConnect (host world s) remoteFd .ok client
          (s.setRole remoteFd .bare) = .error .exit _ :=
        Environment.onRemoteConnect_stops info printed
      exact Returns.of_eq (Stepwise.bind_of_error stopped) (.inr ⟨_, rfl⟩)
  | some packet =>
      have wrote : onRemoteConnect (host world s) remoteFd .ok client
          (s.setRole remoteFd .bare) = .ok () _ :=
        onRemoteConnect_writes info printed (.inr intact)
      apply Returns.of_eq (Stepwise.bind_of_ok wrote)
      refine .inl ⟨s.setRole remoteFd (.remote client), ?_,
        owned.connects connects, ?_⟩
      · exact congrArg (EStateM.Result.ok ())
          (setRole_setRole remoteFd .bare (.remote client))
      · intro fd registered gone
        exfalso
        apply registered
        by_cases same : fd = remoteFd
        · simp [same, setRole] at gone
        · simpa [roles_setRole, Ne.symm same] using gone

theorem connectFailed_returns (world : Surroundings)
    (connects : s.roles[remoteFd]? = some (.connecting client)) :
    Returns client s (perform (.connectFailed remoteFd world) s) := by
  have paired := owned.serve (.inl connects)
  obtain ⟨_, _, isClient, _⟩ := owned.pair paired
  have apart : client ≠ remoteFd := by
    rintro rfl
    rw [connects] at isClient
    cases isClient
  have here : perform (.connectFailed remoteFd world) s = (do
      onRemoteConnect (host world s) remoteFd .ng client
      modify (release remoteFd)) (s.dropRole remoteFd) := by
    simp only [perform, Stepwise.get_bind, connects, Stepwise.modify_bind]
  have still : (s.dropRole remoteFd).roles[client]? = some .client := by
    grind [dropRole]
  have absent : (s.dropRole remoteFd).roles[remoteFd]? = none := by
    simp [dropRole]
  obtain ⟨depth, size⟩ := one_role isClient
  obtain ⟨between, closed, leaves⟩ :=
    closing_widow world depth still paired absent
  have told : onRemoteConnect (host world s) remoteFd .ng client
      (s.dropRole remoteFd) = .ok () between := by
    rw [← size] at closed
    exact Environment.onRemoteConnect_failed (by decide) closed
  rw [here]
  apply Returns.of_eq (Stepwise.bind_of_ok told)
  apply Leaves.returns owned _ isClient (.inr paired)
  constructor
  · intro fd
    change between.roles[fd]? = _
    rw [leaves.roles]
    grind [dropRole]
  · exact leaves.c2r
  · exact leaves.r2c
  · exact leaves.state
  · exact leaves.info
  · exact leaves.opened
  · intro fd member
    rcases List.mem_append.mp member with earlier | last
    · exact leaves.released fd earlier
    · exact .inr (.inr (.inl (List.mem_singleton.mp last)))

theorem remoteMessage_returns {world : Surroundings} {piece : Bytes}
    (serves : s.roles[remoteFd]? = some (.remote client))
    (meets : s.Meets (.remoteMessage remoteFd piece world)) :
    Returns client s (perform (.remoteMessage remoteFd piece world) s) := by
  obtain ⟨_, _, isClient, _⟩ := owned.pair (owned.serve (.inr serves))
  obtain ⟨depth, size⟩ := two_roles isClient serves (by
    rintro rfl
    rw [isClient] at serves
    cases serves)
  have here : perform (.remoteMessage remoteFd piece world) s =
      onRemoteMessage (hostWith world (closing world (depth + 2))
        (connecting world (depth + 2))) remoteFd piece client s := by
    simp only [perform, Stepwise.get_bind, serves, host, size]
  rw [here]
  exact onRemoteMessage_returns owned world depth piece serves meets

theorem remoteClosed_returns (world : Surroundings)
    (serves : s.roles[remoteFd]? = some (.remote client)) :
    Returns client s (perform (.remoteClosed remoteFd world) s) := by
  have paired := owned.serve (.inr serves)
  obtain ⟨known, _, isClient, _⟩ := owned.pair paired
  obtain ⟨depth, size⟩ := two_roles isClient serves (by
    rintro rfl
    rw [isClient] at serves
    cases serves)
  obtain ⟨after, closed, leaves⟩ :=
    closing_provider world depth isClient paired known serves
  rw [← size] at closed
  apply Returns.of_eq (Stepwise.get_bind _ _)
  apply Returns.of_eq (Stepwise.bind_of_ok closed)
  exact leaves.returns owned isClient (.inr paired)

/-- An event for a client other than the end of a batch. -/
theorem event_returns {event : Event} (allowed : s.Allows event)
    (meets : s.Meets event) (other : event ≠ .flush) :
    ∃ client, s.Concerns client event ∧ Returns client s (perform event s) := by
  cases event with
  | accept client => exact ⟨client, rfl, accept_returns owned allowed⟩
  | message client piece world =>
      obtain ⟨isClient, usable⟩ := allowed
      obtain ⟨depth, size⟩ := one_role isClient
      refine ⟨client, rfl, ?_⟩
      apply Returns.of_eq (Stepwise.get_bind _ _)
      rw [host, size]
      exact onMessage_returns owned world depth piece isClient usable meets
  | clientClosed client world =>
      exact ⟨client, rfl, clientClosed_returns owned world allowed⟩
  | connected remoteFd world =>
      obtain ⟨client, connects⟩ := allowed
      exact ⟨client, .inl connects, connected_returns owned connects meets⟩
  | connectFailed remoteFd world =>
      obtain ⟨client, connects⟩ := allowed
      exact ⟨client, .inl connects, connectFailed_returns owned world connects⟩
  | remoteMessage remoteFd piece world =>
      obtain ⟨⟨client, serves⟩, _⟩ := allowed
      exact ⟨client, .inr serves, remoteMessage_returns owned serves meets⟩
  | remoteClosed remoteFd world =>
      obtain ⟨client, serves⟩ := allowed
      exact ⟨client, .inr serves, remoteClosed_returns owned world serves⟩
  | flush => exact absurd rfl other

/-- Every step that meets the condition keeps the maps in order and closes
nothing of other clients, unless it ends the process. -/
theorem step_returns {event : Event} (allowed : s.Allows event)
    (meets : s.Meets event) :
    (∃ after, perform event s = .ok () after ∧ Owned after ∧
      s.Spares event after) ∨
    ∃ stopped, perform event s = .error .exit stopped := by
  by_cases ends : event = .flush
  · subst ends
    refine .inl ⟨_, rfl, owned.flushed, ?_⟩
    intro fd registered gone
    exact absurd gone registered
  · obtain ⟨client, concerns, returns | stops⟩ :=
      event_returns owned allowed meets ends
    · obtain ⟨after, returned, kept, closes⟩ := returns
      refine .inl ⟨after, returned, kept, ?_⟩
      intro fd registered gone
      exact ⟨client, concerns, closes fd registered gone⟩
    · exact .inr stops

end Steps

theorem owned_start : Owned {} := by
  constructor
  · intro client remoteFd paired
    simp at paired
  · intro client remoteFd serves
    simp [Serves] at serves
  · intro client remoteFd known
    simp at known
  · intro fd role found
    simp at found
  · exact List.Subset.refl _

theorem Reached.owned (reached : Reached Meets s) : Owned s := by
  induction reached with
  | start => exact owned_start
  | step earlier allowed meets returned induction =>
      rcases step_returns induction allowed meets with kept | ⟨_, stopped⟩
      · obtain ⟨after, same, owned, _⟩ := kept
        rw [returned] at same
        cases same
        exact owned
      · rw [returned] at stopped
        cases stopped

/-- In a run whose events all meet the condition, the two maps agree, the
connection of a client is open, and what an event closes is its client or the
connection for it. -/
theorem gateway_closes_its_own (reached : Reached Meets s) :
    s.Agree ∧ ∀ event, s.Allows event → s.Meets event →
      (∃ after, perform event s = .ok () after ∧ s.Spares event after) ∨
      ∃ stopped, perform event s = .error .exit stopped := by
  have owned := reached.owned
  refine ⟨owned.agree, ?_⟩
  intro event allowed meets
  rcases step_returns owned allowed meets with kept | stopped
  · obtain ⟨after, returned, _, spares⟩ := kept
    exact .inl ⟨after, returned, spares⟩
  · exact .inr stopped

/-- The state after these events, the last of them first. -/
def following : List Event → Network
  | [] => {}
  | event :: earlier => Stepwise.final (perform event (following earlier))

theorem perform_following {event : Event} {earlier : List Event}
    (returned : Stepwise.isOk (perform event (following earlier)) = true) :
    perform event (following earlier) = .ok () (following (event :: earlier)) :=
  Stepwise.eq_ok_final returned

theorem reached_following {condition : Network → Event → Prop} {event : Event}
    {earlier : List Event} (reached : Reached condition (following earlier))
    (allowed : (following earlier).Allows event)
    (meets : condition (following earlier) event)
    (returned : Stepwise.isOk (perform event (following earlier)) = true) :
    Reached condition (following (event :: earlier)) :=
  .step reached allowed meets (perform_following returned)

def rootBytes : Bytes := ascii "GET / HTTP/1.1\r\n\r\n"

def lastBytes : Bytes :=
  ascii "GET / HTTP/1.1\r\nConnection: close\r\n\r\n"

def lastRequest : HttpRequest :=
  { client := 5
    method := ascii "GET"
    uri := ascii "/"
    httpVersion := ascii "HTTP/1.1"
    headers := [(ascii "Connection", ascii "close")]
    body := [] }

def helloBytes : Bytes :=
  ascii "HTTP/1.1 200 OK\r\nContent-Length: 2\r\n\r\nhi"

/-- A client that asks to be closed is closed together with its own
connection. -/
theorem closes_client_and_connection :
    ∃ s, Reached Meets s ∧ s.tables.c2r[(5 : Fd)]? = some 6 ∧ s.Agree ∧
      ∃ after, perform (.remoteMessage 6 helloBytes {}) s = .ok () after ∧
        s.Spares (.remoteMessage 6 helloBytes {}) after := by
  have accepted : Reached Meets (following [.accept 5]) :=
    reached_following .start ⟨by decide, by decide +kernel⟩ trivial
      (by decide +kernel)
  have heard : Reached Meets (following
      [.message 5 lastBytes { attempt := .pending 6 }, .accept 5]) := by
    refine reached_following accepted ⟨by decide +kernel, ?_⟩ ?_
      (by decide +kernel)
    · intro fd given
      cases given
      exact ⟨by decide, by decide +kernel⟩
    · intro r rest waits parsed ok fd failing
      cases failing
  have connected : Reached Meets (following
      [.connected 6 {}, .message 5 lastBytes { attempt := .pending 6 },
        .accept 5]) :=
    reached_following heard ⟨5, by decide +kernel⟩ List.not_mem_nil
      (by decide +kernel)
  obtain ⟨agree, closes⟩ := gateway_closes_its_own connected
  refine ⟨_, connected, by decide +kernel, agree, ?_⟩
  have allowed : (following [.connected 6 {},
      .message 5 lastBytes { attempt := .pending 6 }, .accept 5]).Allows
        (.remoteMessage 6 helloBytes {}) :=
    ⟨⟨5, by decide +kernel⟩, fun fd given => by cases given⟩
  have ends : (following [.connected 6 {},
      .message 5 lastBytes { attempt := .pending 6 }, .accept 5]).Meets
        (.remoteMessage 6 helloBytes {}) := by
    intro client read rest request target serves intact parsed info
    have owner : client = 5 := by
      have same := serves.symm.trans (show _ = some (Role.remote 5) by
        decide +kernel)
      cases same
      rfl
    subst owner
    have asked : request = lastRequest := by
      have same := info.symm.trans (show _ = some (lastRequest, default) by
        decide +kernel)
      cases same
      rfl
    subst asked
    change Http.verdict lastRequest ≠ .opened
    decide +kernel
  rcases closes _ allowed ends with returned | ⟨_, stopped⟩
  · exact returned
  · have fine : Stepwise.isOk (perform (.remoteMessage 6 helloBytes {})
        (following [.connected 6 {},
          .message 5 lastBytes { attempt := .pending 6 }, .accept 5])) = true := by
      decide +kernel
    rw [stopped] at fine
    cases fine

/-- A client that stays keeps the number of the connection that was closed
after its response, and takes a later client with that number along. -/
theorem stale_pair_closes_another_client :
    ∃ s after, Reached (fun _ _ => True) s ∧ ¬ s.Agree ∧
      s.roles[(6 : Fd)]? = some .client ∧ s.Allows (.clientClosed 5 {}) ∧
      perform (.clientClosed 5 {}) s = .ok () after ∧
      after.roles[(6 : Fd)]? = none ∧ ¬ s.Spares (.clientClosed 5 {}) after := by
  have accepted : Reached (fun _ _ => True) (following [.accept 5]) :=
    reached_following .start ⟨by decide, by decide +kernel⟩ trivial
      (by decide +kernel)
  have heard : Reached (fun _ _ => True) (following
      [.message 5 rootBytes { attempt := .pending 6 }, .accept 5]) := by
    refine reached_following accepted ⟨by decide +kernel, ?_⟩ trivial
      (by decide +kernel)
    intro fd given
    cases given
    exact ⟨by decide, by decide +kernel⟩
  have connected : Reached (fun _ _ => True) (following
      [.connected 6 {}, .message 5 rootBytes { attempt := .pending 6 },
        .accept 5]) :=
    reached_following heard ⟨5, by decide +kernel⟩ trivial (by decide +kernel)
  have answered : Reached (fun _ _ => True) (following
      [.remoteMessage 6 helloBytes {}, .connected 6 {},
        .message 5 rootBytes { attempt := .pending 6 }, .accept 5]) :=
    reached_following connected
      ⟨⟨5, by decide +kernel⟩, fun fd given => by cases given⟩ trivial
      (by decide +kernel)
  have flushed : Reached (fun _ _ => True) (following
      [.flush, .remoteMessage 6 helloBytes {}, .connected 6 {},
        .message 5 rootBytes { attempt := .pending 6 }, .accept 5]) :=
    reached_following answered trivial trivial (by decide +kernel)
  have reused : Reached (fun _ _ => True) (following
      [.accept 6, .flush, .remoteMessage 6 helloBytes {}, .connected 6 {},
        .message 5 rootBytes { attempt := .pending 6 }, .accept 5]) :=
    reached_following flushed ⟨by decide, by decide +kernel⟩ trivial
      (by decide +kernel)
  have isClient : (following
      [.accept 6, .flush, .remoteMessage 6 helloBytes {}, .connected 6 {},
        .message 5 rootBytes { attempt := .pending 6 },
        .accept 5]).roles[(6 : Fd)]? = some .client := by
    decide +kernel
  have closed : (following
      [.clientClosed 5 {}, .accept 6, .flush, .remoteMessage 6 helloBytes {},
        .connected 6 {}, .message 5 rootBytes { attempt := .pending 6 },
        .accept 5]).roles[(6 : Fd)]? = none := by
    decide +kernel
  refine ⟨_, _, reused, ?_, isClient, (show _ = _ by decide +kernel),
    perform_following (by decide +kernel), closed, ?_⟩
  · intro agree
    obtain ⟨known, _⟩ := agree 5 6 (by decide +kernel)
    have forgotten := known.symm.trans (show _ = none by decide +kernel)
    cases forgotten
  · intro spares
    have registered : (following
        [.accept 6, .flush, .remoteMessage 6 helloBytes {}, .connected 6 {},
          .message 5 rootBytes { attempt := .pending 6 },
          .accept 5]).roles[(6 : Fd)]? ≠ none := by
      rw [isClient]
      exact Option.some_ne_none _
    obtain ⟨client, concerns, own | serves⟩ := spares 6 registered closed
    · have same : (5 : Fd) = 6 := concerns.trans own.symm
      cases same
    · rcases serves with connecting | remote
      · rw [isClient] at connecting
        cases connecting
      · rw [isClient] at remote
        cases remote

end Network

end HttpGateway

end Universe
