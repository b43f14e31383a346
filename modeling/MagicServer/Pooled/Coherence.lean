import MagicServer.Pooled.Server

/-!
# What the listener and the workers agree on

As long as the calls of `close()` on one Connection do not overlap and no
removal hits a position from which on the array loses entries, the sockets stay
orderly, every request is about a Connection that has been created, and the
`ConnectionLost` request of a Connection is the last one about it: it has no
entry left from which the listener could make another one.
-/

namespace MSrv.PooledServer

variable {size : Nat}

/-- The calls of `close()` on one Connection do not overlap past its test, and
every removal leaves the other entries. -/
def Separate (server : PooledServer size) : Action size → Prop
  | .listen action => ∀ fd, server.listening.removes action = some fd →
      server.sockets.KeepsOthers fd
  | .closeStep w pc => server.closers.Separate (.step w pc)
  | .pool _ | .close _ _ | .delete _ => True

/-- The entries of the table. -/
def table (server : PooledServer size) : List Descriptor := server.sockets.mDescriptors

/-- The listener has made the request and perhaps passed it on. -/
def Made (server : PooledServer size) (request : Request) : Prop :=
  request ∈ server.pool.pushed ∨ server.listening.pc.request? = some request

/-- The pool has been told that the Connection is lost. -/
def HasLost (server : PooledServer size) (c : ConnectionId) : Prop :=
  ∃ lost ∈ server.pool.pushed, lost.content = .connectionLost (some c)

/-- The listener is about to remove an entry. -/
def Removing (server : PooledServer size) (entry : Descriptor) : Prop :=
  ∃ request ready i, server.listening.pc = .handling request (.dispatch ready i entry.mFd true)

/-- The second request is not about a Connection whose loss the first one tells. -/
def Outlasts (earlier later : Request) : Prop :=
  ∀ c, earlier.content = .connectionLost (some c) → later.connection? ≠ some c

/-- The invariant of listener and workers. -/
structure Coherent (server : PooledServer size) : Prop where
  orderly : server.closers.Orderly
  pool : (WorkerPool.machine size 1).Reachable (.initial size 1) server.pool
  alive : server.pool.alive = true
  known : ∀ request c, server.Made request → request.connection? = some c →
    c < server.sockets.created
  lostLast : server.pool.pushed.Pairwise Outlasts
  inHands : ∀ request, server.listening.pc.request? = some request →
    request ∉ server.pool.pushed → ∀ c, request.connection? = some c → ¬ server.HasLost c
  unlisted : ∀ lost c, server.Made lost → lost.content = .connectionLost (some c) →
    ∀ entry ∈ server.table, entry.mpData = some c → server.Removing entry

variable {server next : PooledServer size} {action : Action size} {c : ConnectionId}

/-- A `ConnectionLost` request is about the Connection that is lost. -/
theorem connection?_of_lost {lost : Request} (content : lost.content = .connectionLost (some c)) :
    lost.connection? = some c := by rw [Request.connection?, content]

/-- The entries of the sockets are sound. -/
theorem Coherent.sound (coherent : server.Coherent) : server.sockets.Sound := coherent.orderly.sound

/-- Outside the handler an entry in the table is not that of a lost Connection. -/
theorem Coherent.not_hasLost (coherent : server.Coherent)
    (outside : server.listening.pc.request? = none) {entry : Descriptor}
    (listed : entry ∈ server.table) (data : entry.mpData = some c) : ¬ server.HasLost c := by
  rintro ⟨lost, pushed, content⟩
  obtain ⟨request, ready, i, here⟩ :=
    coherent.unlisted lost c (Or.inl pushed) content entry listed data
  rw [here] at outside
  cases outside

/-- Entries and open descriptors may go while the listener stays where it is. -/
theorem Coherent.still (coherent : server.Coherent) (orderly : next.closers.Orderly)
    (pool : next.pool = server.pool) (pc : next.listening.pc = server.listening.pc)
    (created : next.sockets.created = server.sockets.created)
    (table : next.table ⊆ server.table) : next.Coherent := by
  have made : ∀ request, next.Made request ↔ server.Made request := by
    intro request
    unfold Made
    rw [pool, pc]
  refine ⟨orderly, pool ▸ coherent.pool, pool ▸ coherent.alive, ?_, pool ▸ coherent.lostLast, ?_,
    ?_⟩
  · intro request c of_next about
    rw [created]
    exact coherent.known request c ((made request).mp of_next) about
  · intro request inHands unpushed c about
    unfold HasLost
    rw [pool] at unpushed ⊢
    exact coherent.inHands request (pc ▸ inHands) unpushed c about
  · intro lost c of_next content entry listed data
    unfold Removing
    rw [pc]
    exact coherent.unlisted lost c ((made lost).mp of_next) content entry (table listed) data

/-- The listener goes on outside the handler and may have made a request. -/
theorem Coherent.outside (coherent : server.Coherent)
    (outside : server.listening.pc.request? = none) (orderly : next.closers.Orderly)
    (pool : next.pool = server.pool) (created : server.sockets.created ≤ next.sockets.created)
    (table : ∀ entry ∈ next.table,
      entry ∈ server.table ∨ entry.mpData = some server.sockets.created)
    (made : ∀ request, next.listening.pc.request? = some request →
      ∀ c, request.connection? = some c → c < next.sockets.created ∧ ¬ server.HasLost c ∧
        (request.content = .connectionLost (some c) →
          ∀ entry ∈ next.table, entry.mpData = some c → next.Removing entry)) :
    next.Coherent := by
  refine ⟨orderly, pool ▸ coherent.pool, pool ▸ coherent.alive, ?_, pool ▸ coherent.lostLast, ?_,
    ?_⟩
  · rintro request c (pushed | inHands) about
    · rw [pool] at pushed
      exact (coherent.known request c (Or.inl pushed) about).trans_le created
    · exact (made request inHands c about).1
  · intro request inHands _ c about
    unfold HasLost
    rw [pool]
    exact (made request inHands c about).2.1
  · rintro lost c (pushed | inHands) content entry listed data
    · rw [pool] at pushed
      rcases table entry listed with earlier | new
      · exact absurd ⟨lost, pushed, content⟩ (coherent.not_hasLost outside earlier data)
      · cases data.symm.trans new
        have known := coherent.known lost _ (Or.inl pushed) (connection?_of_lost content)
        exact absurd known (lt_irrefl _)
    · exact (made lost inHands c (connection?_of_lost content)).2.2 content entry listed data

/-- The listener goes on outside the handler, without a request about a Connection. -/
theorem Coherent.impersonal (coherent : server.Coherent) {after : Listening}
    (outside : server.listening.pc.request? = none)
    (sockets : after.server.sockets = server.sockets)
    (impersonal : ∀ request, after.pc.request? = some request → request.connection? = none) :
    Coherent { server with listening := after } := by
  refine coherent.outside outside ?_ rfl (congrArg Sockets.created sockets).ge ?_ ?_
  · unfold closers PooledServer.sockets
    rw [sockets]
    exact coherent.orderly
  · intro entry listed
    unfold table PooledServer.sockets at listed
    rw [sockets] at listed
    exact Or.inl listed
  · intro request inHands c about
    cases (impersonal request inHands).symm.trans about

/-- The steps of `listen()` outside the handler. -/
theorem Coherent.listen (coherent : server.Coherent) {inner : Listening.Action} {after : Listening}
    (step : Listening.Step Array.written server.listening inner after)
    (outside : ∀ result, inner ≠ .returned result) :
    Coherent { server with listening := after } := by
  have orderly := coherent.orderly
  -- A request about the Connection of an entry.
  have about : ∀ {entry : Descriptor}, server.listening.pc.request? = none →
      entry ∈ server.table → ∀ c, entry.mpData = some c →
      c < server.sockets.created ∧ ¬ server.HasLost c := fun outside listed c data =>
    ⟨(coherent.sound.number listed data).1, coherent.not_hasLost outside listed data⟩
  cases step with
  | quiet before away sockets =>
      refine coherent.impersonal before sockets fun request inHands => ?_
      cases away.symm.trans inHands
  | startShutdown => exact coherent.still orderly rfl rfl rfl (List.Subset.refl _)
  | timeout here =>
      refine coherent.impersonal (congrArg ListenPc.request? here) rfl fun request inHands => ?_
      cases inHands
      rfl
  | connected here _ free =>
      exact coherent.outside (congrArg ListenPc.request? here) (orderly.addClient free) rfl
        (Nat.le_succ _) (fun entry listed => (Sockets.mem_addClient.mp listed).imp_right
          (congrArg Descriptor.mpData))
        fun request inHands => nomatch inHands
  | newConnection here _ free =>
      refine coherent.outside (congrArg ListenPc.request? here) (orderly.addClient free) rfl
        (Nat.le_succ _) (fun entry listed => (Sockets.mem_addClient.mp listed).imp_right
          (congrArg Descriptor.mpData)) ?_
      intro request inHands c new
      cases inHands
      cases new
      refine ⟨Nat.lt_succ_self _, ?_, nofun⟩
      rintro ⟨lost, pushed, content⟩
      have known := coherent.known lost _ (Or.inl pushed) (connection?_of_lost content)
      exact absurd known (lt_irrefl _)
  | streamData here found =>
      have before : server.listening.pc.request? = none := congrArg ListenPc.request? here
      refine coherent.outside before orderly rfl le_rfl (fun _ => Or.inl) ?_
      intro request inHands c owner
      cases inHands
      obtain ⟨created, unlost⟩ := about before (List.mem_of_getElem? found) c owner
      exact ⟨created, unlost, nofun⟩
  | datagram here =>
      refine coherent.impersonal (congrArg ListenPc.request? here) rfl fun request inHands => ?_
      cases inHands
      rfl
  | @connectionLost ready i entry _ here found =>
      have before : server.listening.pc.request? = none := congrArg ListenPc.request? here
      have listed : entry ∈ server.table := List.mem_of_getElem? found
      refine coherent.outside before orderly rfl le_rfl (fun _ => Or.inl) ?_
      intro request inHands c owner
      cases inHands
      obtain ⟨created, unlost⟩ := about before listed c owner
      refine ⟨created, unlost, fun _ other listed' owner' => ?_⟩
      have number : other.mFd = entry.mFd :=
        (coherent.sound.number listed' owner').2.trans (coherent.sound.number listed owner).2.symm
      unfold Removing
      rw [number]
      exact ⟨_, ready, i, rfl⟩
  | dropped here =>
      exact coherent.outside (congrArg ListenPc.request? here) (orderly.removeDescriptor _) rfl
        Sockets.removeDescriptor_created.ge
        (fun entry listed => Or.inl ((Closers.removeDescriptor_sublist _ _).subset listed))
        fun request inHands => nomatch inHands
  | returned result => exact absurd rfl (outside result)

/-- `process()` returns to the listener. -/
theorem Coherent.returned (coherent : server.Coherent) {request : Request} {resume : Resume}
    (here : server.listening.pc = .handling request resume)
    (separate : server.Separate (.listen (.returned 0))) :
    Coherent
      { server with listening := server.listening.afterHandler Array.written 0 resume } := by
  -- Entries are left, but not the one that the listener was about to remove.
  have settled : ∀ {after : Listening}, after.pc.request? = none →
      Closers.Orderly { server.closers with sockets := after.server.sockets } →
      after.server.sockets.created = server.sockets.created →
      (∀ entry ∈ after.server.sockets.mDescriptors,
        entry ∈ server.table ∧ ¬ server.Removing entry) →
      Coherent { server with listening := after } := by
    intro after away orderly created left
    refine ⟨orderly, coherent.pool, coherent.alive, ?_, coherent.lostLast, ?_, ?_⟩
    · rintro other c (pushed | inHands) about
      · exact (coherent.known other c (Or.inl pushed) about).trans_eq created.symm
      · cases away.symm.trans inHands
    · intro other inHands
      cases away.symm.trans inHands
    · rintro lost c (pushed | inHands) content entry listed data
      · obtain ⟨earlier, stays⟩ := left entry listed
        exact absurd (coherent.unlisted lost c (Or.inl pushed) content entry earlier data) stays
      · cases away.symm.trans inHands
  obtain ⟨away, ⟨stays, sockets⟩ | ⟨ready, i, fd, rfl, sockets⟩⟩ :=
    Listening.afterHandler_cases Array.written server.listening 0 resume
  · refine settled away (by rw [sockets]; exact coherent.orderly)
      (congrArg Sockets.created sockets) fun entry listed => ?_
    rw [sockets] at listed
    refine ⟨listed, ?_⟩
    rintro ⟨request', ready, i, there⟩
    cases here.symm.trans there
    exact stays ready i entry.mFd rfl
  · refine settled away (by rw [sockets]; exact coherent.orderly.removeDescriptor fd)
      (by rw [sockets]; exact Sockets.removeDescriptor_created) fun entry listed => ?_
    have keeps : server.closers.sockets.KeepsOthers fd :=
      separate fd (by rw [Listening.removes, here])
    rw [sockets] at listed
    obtain ⟨earlier, different⟩ := (coherent.orderly.mem_removeDescriptor keeps).mp listed
    refine ⟨earlier, ?_⟩
    rintro ⟨request', ready', i', there⟩
    cases here.symm.trans there
    exact different rfl

/-- A step of the pool. -/
theorem Coherent.poolStep (coherent : server.Coherent) {action : WorkerPool.Action size 1}
    {pool : WorkerPool size 1} {deleting : Fin size → Bool} (takes : server.Takes action)
    (taken : (WorkerPool.machine size 1).step server.pool action = some pool) :
    Coherent { server with pool := pool, deleting := deleting } := by
  have alive : pool.alive = true := by
    rcases WorkerPool.alive_step taken with same | ⟨_, c, rfl⟩
    · exact same.trans coherent.alive
    · exact takes.elim
  have reached := coherent.pool.step taken
  rcases WorkerPool.pushed_step taken with same | ⟨c, request, rfl, new, pushed⟩
  · have made : ∀ request, Made { server with pool := pool, deleting := deleting } request →
        server.Made request := fun request of_next => of_next.imp_left fun member => same ▸ member
    refine ⟨coherent.orderly, reached, alive, fun request c of_next => coherent.known request c
      (made request of_next), same ▸ coherent.lostLast, fun request inHands unpushed c about => ?_,
      fun lost c of_next => coherent.unlisted lost c (made lost of_next)⟩
    rintro ⟨lost, member, content⟩
    exact coherent.inHands request inHands (same ▸ unpushed) c about ⟨lost, same ▸ member, content⟩
  · have inHands : server.listening.pc.request? = some request := takes
    have unpushed : request ∉ server.pool.pushed := fun member =>
      new ((WorkerPool.accounts_of_reachable coherent.pool).1.pushed_issued request member)
    have made : ∀ other, Made { server with pool := pool, deleting := deleting } other →
        server.Made other := by
      rintro other (member | there)
      · rw [pushed] at member
        rcases List.mem_append.mp member with earlier | now
        · exact Or.inl earlier
        · exact Or.inr (List.mem_singleton.mp now ▸ inHands)
      · exact Or.inr there
    refine ⟨coherent.orderly, reached, alive, fun other c of_next => coherent.known other c
      (made other of_next), ?_, fun other there unpushed' => ?_,
      fun lost c of_next => coherent.unlisted lost c (made lost of_next)⟩
    · change pool.pushed.Pairwise Outlasts
      rw [pushed, List.pairwise_append]
      refine ⟨coherent.lostLast, List.pairwise_singleton _ _, fun earlier member later now => ?_⟩
      rw [List.mem_singleton.mp now]
      intro c content about
      exact coherent.inHands request inHands unpushed c about ⟨earlier, member, content⟩
    · cases inHands.symm.trans there
      refine absurd ?_ unpushed'
      change request ∈ pool.pushed
      rw [pushed]
      exact List.mem_append_right _ (List.mem_singleton_self _)

/-- A step of a worker in `close()`. -/
theorem Coherent.closersStep (coherent : server.Coherent) {action : Closers.Action (Fin size)}
    {destroyer : ConnectionId → Option (Fin size)} {deleting : Fin size → Bool}
    (worker : ∃ w, (∃ c, action = .call w c) ∨ ∃ pc, action = .step w pc)
    (enabled : server.closers.Enabled action) (separate : server.closers.Separate action) :
    Coherent
      { server.withClosers (server.closers.effect action) with
        destroyer := destroyer
        deleting := deleting } := by
  have orderly := coherent.orderly.step separate (Closers.machine_step.mpr ⟨enabled, rfl⟩)
  obtain ⟨w, ⟨c, rfl⟩ | ⟨pc, rfl⟩⟩ := worker
  · exact coherent.still orderly rfl rfl rfl (List.Subset.refl _)
  · cases pc with
    | removing c fd =>
        exact coherent.still orderly rfl rfl Sockets.removeDescriptor_created
          (Closers.removeDescriptor_sublist _ _).subset
    | _ => exact coherent.still orderly rfl rfl rfl (List.Subset.refl _)

/-- A request in the hands of a worker has been made. -/
theorem Coherent.held_made (coherent : server.Coherent) {w : Fin size} {request : Request}
    (held : (server.pool.worker w).request? = some request) :
    request ∈ server.pool.pulled ∧ server.Made request := by
  have pulled := WorkerPool.held_pulled coherent.pool held
  exact ⟨pulled, Or.inl
    ((WorkerPool.accounts_of_reachable coherent.pool).1.pulled_pushed pulled)⟩

/-- Every step that keeps the calls separate keeps the agreement. -/
theorem Coherent.step (coherent : server.Coherent) (separate : server.Separate action)
    (taken : (machine size).step server action = some next) : next.Coherent := by
  cases step_cases taken with
  | listen step outside => exact coherent.listen step outside
  | returned here => exact coherent.returned here separate
  | pool takes stepped => exact coherent.poolStep takes stepped
  | @close w c outside created =>
      exact coherent.closersStep ⟨w, Or.inl ⟨c, rfl⟩⟩ ⟨outside, created⟩ trivial
  | @closeStep w pc inside =>
      exact coherent.closersStep ⟨w, Or.inr ⟨pc, rfl⟩⟩ inside separate
  | @delete w request held outside =>
      unfold deleteRequest
      split
      · next c content =>
          have made := (coherent.held_made (congrArg WorkerPc.request? held)).2
          have created := coherent.known request c made (connection?_of_lost content)
          exact coherent.closersStep ⟨w, Or.inl ⟨c, rfl⟩⟩ ⟨outside, created⟩ trivial
      · exact coherent.still coherent.orderly rfl rfl rfl (List.Subset.refl _)

/-- `listen()` is called on a listener that has been bound once. -/
theorem coherent_start {mask flags : Nat} {protocol : Protocol} {calls : BindCalls}
    {listener : ServerListener}
    (bound : (ServerListener.construct.setRequestMask mask).bind protocol flags calls =
      (0, listener)) : (start size listener).Coherent := by
  obtain ⟨_, rfl⟩ := ServerListener.bind_eq_zero bound
  refine ⟨Closers.orderly_bound calls.socket, .refl _, rfl, ?_, .nil, ?_, ?_⟩
  · rintro request c (pushed | inHands) <;> contradiction
  · intro request inHands
    contradiction
  · rintro lost c (pushed | inHands) <;> contradiction

end MSrv.PooledServer
