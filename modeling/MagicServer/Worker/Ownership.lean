import MagicServer.Worker.Drain

/-!
# Who has to destroy a request

A request that has been passed to `process()` is in one place at a time: in the
queue, in the hands of a worker or of a caller that has to see to it, or
destroyed. A step moves requests between these places, with one exception: a
`Shutdown` request that comes when `mIsShutdown` is set is dropped.
-/

namespace MSrv

/-- The request that a caller has to pass on or to destroy. -/
def CallerPc.owned? : CallerPc → Option Request
  | .testing final | .setting final | .broadcasting final | .joining final _ => final
  | .finalizing request | .handlingFinal request => some request
  | .idle | .signalling _ | .destructing | .deleting _ | .destroyed => none

namespace WorkerPool

variable {size callers : Nat}

/-- How often a request is in the hands of the workers. -/
def inWorkers (request : Request) (worker : Fin size → WorkerPc) : Nat :=
  Threads.total (fun pc => (WorkerPc.request? pc).toList.count request) worker

/-- How often a request is in the hands of the callers. -/
def inCallers (request : Request) (caller : Fin callers → CallerPc) : Nat :=
  Threads.total (fun pc => (CallerPc.owned? pc).toList.count request) caller

/-- In how many places a request is. -/
def places (pool : WorkerPool size callers) (request : Request) : Nat :=
  pool.destroyed.count request + pool.mRequestQueue.count request +
    inWorkers request pool.worker + inCallers request pool.caller

/-- No `Shutdown` request comes to the test when `mIsShutdown` is set. -/
def TestsFirst (pool : WorkerPool size callers) : Action size callers → Prop
  | .testShutdown _ (some _) => pool.mIsShutdown = false
  | _ => True

instance (pool : WorkerPool size callers) : DecidablePred pool.TestsFirst
  | .testShutdown _ (some _) => inferInstanceAs (Decidable (_ = _))
  | .testShutdown _ none | .process _ _ | .signal _ _ _ | .setShutdown _ _ | .broadcast _ _
  | .join _ _ _ | .joinEnd _ _ _ | .callFinal _ _ | .finishFinal _ _ | .destruct _
  | .testDestruct _ | .deleteWorker _ _ | .destroyQueue _ _ | .testWorker _ | .sleep _ | .wake _
  | .resume _ | .pull _ _ | .pullNull _ | .call _ _ | .finish _ _ =>
      inferInstanceAs (Decidable True)

/-- What a step does to the places of the requests. -/
inductive Transfer (pool next : WorkerPool size callers) (action : Action size callers) : Prop
  | moved : pool.TestsFirst action → next.issued = pool.issued →
      (∀ request, next.places request = pool.places request) → Transfer pool next action
  | issued {new : Request} : pool.TestsFirst action → new ∉ pool.issued →
      next.issued = pool.issued ++ [new] →
      (∀ request, next.places request = pool.places request + [new].count request) →
      Transfer pool next action
  /-- `shutdown()` returns with an error and forgets its request. -/
  | dropped {c : Fin callers} {final : Request} : action = .testShutdown c (some final) →
      pool.mIsShutdown = true → pool.caller c = .testing (some final) →
      next.issued = pool.issued →
      (∀ request, next.places request + [final].count request = pool.places request) →
      Transfer pool next action

variable {pool next : WorkerPool size callers} {action : Action size callers}

/-- What a worker takes and leaves when it goes on. -/
theorem inWorkers_goWorker {w : Fin size} {before : WorkerPc} (here : pool.worker w = before)
    (after : WorkerPc) (request : Request) :
    inWorkers request (pool.goWorker w after) + before.request?.toList.count request =
      inWorkers request pool.worker + after.request?.toList.count request := by
  rw [← here]
  exact Threads.total_update _

/-- A worker that goes on with what it holds. -/
theorem inWorkers_goWorker_of_eq {w : Fin size} {before : WorkerPc}
    (here : pool.worker w = before) (after : WorkerPc) (same : after.request? = before.request?)
    (request : Request) :
    inWorkers request (pool.goWorker w after) = inWorkers request pool.worker :=
  Threads.total_update_of_eq _ (by rw [here, same])

/-- What a caller takes and leaves when it goes on. -/
theorem inCallers_goCaller {c : Fin callers} {before : CallerPc} (here : pool.caller c = before)
    (after : CallerPc) (request : Request) :
    inCallers request (pool.goCaller c after) + before.owned?.toList.count request =
      inCallers request pool.caller + after.owned?.toList.count request := by
  rw [← here]
  exact Threads.total_update _

/-- A caller that goes on with what it has to see to. -/
theorem inCallers_goCaller_of_eq {c : Fin callers} {before : CallerPc}
    (here : pool.caller c = before) (after : CallerPc) (same : after.owned? = before.owned?)
    (request : Request) :
    inCallers request (pool.goCaller c after) = inCallers request pool.caller :=
  Threads.total_update_of_eq _ (by rw [here, same])

/-- A caller goes on, and no request changes its place. -/
theorem Transfer.caller (first : pool.TestsFirst action) {c : Fin callers}
    {before after : CallerPc} (here : pool.caller c = before)
    (caller : next.caller = pool.goCaller c after) (same : after.owned? = before.owned?)
    (worker : ∀ w, (next.worker w).request? = (pool.worker w).request?)
    (issued : next.issued = pool.issued) (destroyed : next.destroyed = pool.destroyed)
    (queue : next.mRequestQueue = pool.mRequestQueue) : Transfer pool next action := by
  refine .moved first issued fun request => ?_
  have hands : inWorkers request next.worker = inWorkers request pool.worker :=
    Threads.total_congr _ fun w => by rw [worker w]
  rw [places, places, destroyed, queue, hands, caller, inCallers_goCaller_of_eq here after same]

/-- A worker goes on, and no request changes its place. -/
theorem Transfer.worker (first : pool.TestsFirst action) {w : Fin size}
    {before after : WorkerPc} (here : pool.worker w = before)
    (worker : next.worker = pool.goWorker w after) (same : after.request? = before.request?)
    (caller : next.caller = pool.caller) (issued : next.issued = pool.issued)
    (destroyed : next.destroyed = pool.destroyed)
    (queue : next.mRequestQueue = pool.mRequestQueue) : Transfer pool next action := by
  refine .moved first issued fun request => ?_
  rw [places, places, destroyed, queue, caller, worker, inWorkers_goWorker_of_eq here after same]

/-- Entering `process()` takes the request in, to the queue or to its caller. -/
theorem transfer_process {c : Fin callers} {new : Request} (idle : pool.caller c = .idle)
    (fresh : new ∉ pool.issued) :
    Transfer pool (pool.effect (.process c new)) (.process c new) := by
  by_cases final : new.getType = .shutdown
  · refine .issued trivial fresh (by rw [effect_process_shutdown pool c final])
      fun request => ?_
    have taken := inCallers_goCaller idle (.testing (some new)) request
    simp only [CallerPc.owned?, Option.toList_some, Option.toList_none, List.count_nil] at taken
    rw [effect_process_shutdown pool c final]
    simp only [places]
    omega
  · refine .issued trivial fresh (by rw [effect_process_push pool c final]) fun request => ?_
    have kept := inCallers_goCaller_of_eq idle (.signalling new) rfl request
    rw [effect_process_push pool c final]
    simp only [places, kept, List.count_append]
    omega

/-- `shutdown()` drops the request that comes when `mIsShutdown` is set. -/
theorem transfer_testShutdown {c : Fin callers} {final : Option Request}
    (here : pool.caller c = .testing final) :
    Transfer pool (pool.effect (.testShutdown c final)) (.testShutdown c final) := by
  cases shutdown : pool.mIsShutdown with
  | false =>
      have first : pool.TestsFirst (.testShutdown c final) := by
        unfold TestsFirst
        split
        · exact shutdown
        · trivial
      refine .caller first here ?_ (show CallerPc.owned? (.setting final) = _ from rfl)
        (fun _ => rfl) rfl rfl rfl
      simp only [effect, shutdown, Bool.false_eq_true, ↓reduceIte]
  | true =>
      cases final with
      | none =>
          refine .caller trivial here ?_ (show CallerPc.owned? (.deleting 0) = _ from rfl)
            (fun _ => rfl) rfl rfl rfl
          simp only [effect, shutdown, ↓reduceIte]
      | some final =>
          refine .dropped rfl shutdown here rfl fun request => ?_
          have left := inCallers_goCaller here .idle request
          simp only [CallerPc.owned?, Option.toList_some, Option.toList_none,
            List.count_nil] at left
          simp only [effect, places, shutdown, ↓reduceIte]
          omega

/-- Every step moves the requests about, takes a new one in, or drops one. -/
theorem transfer (taken : (machine size callers).step pool action = some next) :
    Transfer pool next action := by
  obtain ⟨enabled, rfl⟩ := machine_step.mp taken
  cases action with
  | process c new => exact transfer_process enabled.2.1 enabled.2.2
  | signal c signalled target =>
      refine .caller trivial enabled.1 rfl rfl (fun w => ?_) rfl rfl rfl
      cases target with
      | none => rfl
      | some sleeper =>
          have asleep : pool.worker sleeper = .asleep := enabled.2
          simp only [effect, goWorker, Function.update_apply]
          split_ifs with same
          · rw [same, asleep]
            rfl
          · rfl
  | testShutdown c final => exact transfer_testShutdown enabled
  | setShutdown c final => exact .caller trivial enabled rfl rfl (fun _ => rfl) rfl rfl rfl
  | broadcast c final =>
      refine .caller trivial enabled rfl rfl (fun w => ?_) rfl rfl rfl
      rw [effect_broadcast_worker]
      split_ifs with asleep
      · rw [asleep]
        rfl
      · rfl
  | join c final i => exact .caller trivial enabled.1 rfl rfl (fun _ => rfl) rfl rfl rfl
  | joinEnd c final i =>
      refine .caller trivial enabled.1 rfl ?_ (fun _ => rfl) rfl rfl rfl
      cases final <;> rfl
  | callFinal c request => exact .caller trivial enabled rfl rfl (fun _ => rfl) rfl rfl rfl
  | finishFinal c final =>
      refine .moved trivial rfl fun request => ?_
      have left := inCallers_goCaller enabled .idle request
      simp only [CallerPc.owned?, Option.toList_some, Option.toList_none, List.count_nil] at left
      simp only [effect, places, List.count_append]
      omega
  | destruct c => exact .caller trivial (enabled.2 c) rfl rfl (fun _ => rfl) rfl rfl rfl
  | testDestruct c =>
      refine .caller trivial enabled rfl ?_ (fun _ => rfl) rfl rfl rfl
      split_ifs <;> rfl
  | deleteWorker c i => exact .caller trivial enabled rfl rfl (fun _ => rfl) rfl rfl rfl
  | destroyQueue c i =>
      refine .moved trivial rfl fun request => ?_
      have kept := inCallers_goCaller_of_eq enabled.1 .destroyed rfl request
      simp only [effect, places, List.count_append, List.count_nil, kept]
      omega
  | testWorker w =>
      refine .worker trivial enabled rfl ?_ rfl rfl rfl rfl
      split_ifs <;> rfl
  | sleep w | wake w | resume w => exact .worker trivial enabled rfl rfl rfl rfl rfl rfl
  | pullNull w => exact .worker trivial enabled.1 rfl rfl rfl rfl rfl rfl
  | call w request => exact .worker trivial enabled rfl rfl rfl rfl rfl rfl
  | pull w pulled =>
      refine .moved trivial rfl fun request => ?_
      obtain ⟨here, oldest⟩ := enabled
      obtain ⟨rest, queue⟩ := List.head?_eq_some_iff.mp oldest
      have taken := inWorkers_goWorker here (.calling pulled) request
      simp only [WorkerPc.request?, Option.toList_some, Option.toList_none, List.count_nil] at taken
      simp only [effect, places, queue, List.tail_cons]
      have first :
          (pulled :: rest).count request = [pulled].count request + rest.count request := by
        rw [← List.count_append, List.singleton_append]
      omega
  | finish w finished =>
      refine .moved trivial rfl fun request => ?_
      have left := inWorkers_goWorker enabled .pulling request
      simp only [WorkerPc.request?, Option.toList_some, Option.toList_none, List.count_nil] at left
      simp only [effect, places, List.count_append]
      omega

/-- Only the destruction of the queue ends `~WorkerPool`. -/
theorem destroyed_step (taken : (machine size callers).step pool action = some next)
    {c : Fin callers} (finished : next.caller c = .destroyed) :
    pool.caller c = .destroyed ∨ next.mRequestQueue = [] := by
  obtain ⟨enabled, rfl⟩ := machine_step.mp taken
  have stayed : ∀ {moved : Fin callers} {pc : CallerPc},
      pool.goCaller moved pc c = .destroyed → pc ≠ .destroyed → pool.caller c = .destroyed := by
    intro moved pc there other
    rcases Threads.of_update (p := fun _ pc => pc = CallerPc.destroyed) there with
      ⟨_, impossible⟩ | ⟨_, before⟩
    · exact absurd impossible other
    · exact before
  cases action with
  | destroyQueue => exact Or.inr rfl
  | process c request =>
      by_cases final : request.getType = .shutdown
      · rw [effect_process_shutdown pool c final] at finished
        exact Or.inl (stayed finished nofun)
      · rw [effect_process_push pool c final] at finished
        exact Or.inl (stayed finished nofun)
  | testShutdown c final =>
      refine Or.inl (stayed finished ?_)
      cases final <;> split_ifs <;> exact nofun
  | joinEnd c final =>
      refine Or.inl (stayed finished ?_)
      cases final <;> exact nofun
  | testDestruct c =>
      refine Or.inl (stayed finished ?_)
      split_ifs <;> exact nofun
  | signal | setShutdown | broadcast | join | callFinal | finishFinal | destruct | deleteWorker =>
      exact Or.inl (stayed finished nofun)
  | _ => exact Or.inl finished

/-- What holds of the requests in every reachable state. -/
structure Ledger (pool : WorkerPool size callers) : Prop where
  books : pool.Bookkeeping
  distinct : pool.issued.Nodup
  emptied : ∀ c, pool.caller c = .destroyed → pool.mRequestQueue = []

theorem ledger_initial : (initial size callers).Ledger where
  books := bookkeeping_initial
  distinct := List.nodup_nil
  emptied _ impossible := nomatch impossible

theorem Ledger.step (ledger : pool.Ledger)
    (taken : (machine size callers).step pool action = some next) : next.Ledger where
  books := ledger.books.step taken
  distinct := by
    cases transfer taken with
    | moved _ issued => exact issued ▸ ledger.distinct
    | issued _ fresh issued =>
        rw [issued]
        exact List.nodup_append_comm.mp (List.nodup_cons.mpr ⟨fresh, ledger.distinct⟩)
    | dropped _ _ _ issued => exact issued ▸ ledger.distinct
  emptied c finished := by
    rcases destroyed_step taken finished with before | emptied
    · have empty := ledger.emptied c before
      have dead : pool.alive = false := ledger.books.lone.dead c (by rw [before]; trivial)
      rcases queue_step taken with ⟨_, _, same⟩ | ⟨_, _, _, _, _, pusher, rfl⟩ |
        ⟨_, _, _, _, queue, _⟩ | ⟨_, _, _, emptied⟩
      · exact same.trans empty
      · have alive := (machine_step.mp taken).1.1
        exact absurd alive (by rw [dead]; exact nofun)
      · rw [empty] at queue
        cases queue
      · exact emptied
    · exact emptied

theorem ledger_of_reachable
    (reached : (machine size callers).Reachable (initial size callers) pool) : pool.Ledger :=
  reached.invariant Ledger (fun _ _ _ ledger taken => ledger.step taken) ledger_initial

/-- At first no request is anywhere. -/
theorem places_initial (request : Request) : (initial size callers).places request = 0 := by
  have workers : inWorkers request (initial size callers).worker = 0 :=
    Threads.total_eq_zero _ fun _ => rfl
  have others : inCallers request (initial size callers).caller = 0 :=
    Threads.total_eq_zero _ fun _ => rfl
  rw [places, workers, others]
  rfl

/-- Every request that has been passed to `process()` is in one place. -/
structure Owned (pool : WorkerPool size callers) : Prop where
  ledger : pool.Ledger
  once : ∀ request, pool.places request = pool.issued.count request

/-- A request that has been passed to `process()` is nowhere. -/
structure Forgotten (pool : WorkerPool size callers) : Prop where
  ledger : pool.Ledger
  lost : ∃ request ∈ pool.issued, pool.places request = 0

theorem Owned.step (owned : pool.Owned) (first : pool.TestsFirst action)
    (taken : (machine size callers).step pool action = some next) : next.Owned := by
  refine ⟨owned.ledger.step taken, fun request => ?_⟩
  cases transfer taken with
  | moved _ issued places => rw [places, issued, owned.once]
  | issued _ _ issued places => rw [places, issued, owned.once, List.count_append]
  | dropped repeated shutdown =>
      rw [repeated] at first
      cases shutdown.symm.trans first

theorem Owned.forgets (owned : pool.Owned) (repeated : ¬ pool.TestsFirst action)
    (taken : (machine size callers).step pool action = some next) : next.Forgotten := by
  refine ⟨owned.ledger.step taken, ?_⟩
  cases transfer taken with
  | moved first => exact absurd first repeated
  | issued first => exact absurd first repeated
  | @dropped _ final _ _ here issued places =>
      have left := places final
      have few := List.nodup_iff_count_le_one.mp owned.ledger.distinct final
      rw [owned.once, List.count_singleton_self] at left
      refine ⟨final, ?_, by omega⟩
      rw [issued]
      exact List.count_pos_iff.mp (by omega)

theorem Forgotten.step (forgotten : pool.Forgotten)
    (taken : (machine size callers).step pool action = some next) : next.Forgotten := by
  obtain ⟨request, issued_before, nowhere⟩ := forgotten.lost
  refine ⟨forgotten.ledger.step taken, request, ?_⟩
  cases transfer taken with
  | moved _ issued places => exact ⟨issued ▸ issued_before, (places request).trans nowhere⟩
  | issued _ fresh issued places =>
      refine ⟨issued ▸ List.mem_append_left _ issued_before, ?_⟩
      rw [places, nowhere, List.count_eq_zero_of_not_mem]
      intro same
      rw [List.mem_singleton.mp same] at issued_before
      exact fresh issued_before
  | dropped _ _ _ issued places =>
      exact ⟨issued ▸ issued_before, by have := places request; omega⟩

/-- No request is in more places than it has been issued. -/
theorem places_le (reached : (machine size callers).Reachable (initial size callers) pool)
    (request : Request) : pool.places request ≤ pool.issued.count request := by
  have start : (initial size callers).places request ≤
      (initial size callers).issued.count request := by
    rw [places_initial]
    exact Nat.zero_le _
  refine reached.invariant (fun pool => pool.places request ≤ pool.issued.count request)
    (fun pool action next ih taken => ?_) start
  cases transfer taken with
  | moved _ issued places => rwa [places, issued]
  | issued _ _ issued places =>
      rw [places, issued, List.count_append]
      exact Nat.add_le_add_right ih _
  | dropped _ _ _ issued places =>
      have less := places request
      rw [issued]
      omega

/-- No two workers have one request in their hands. -/
theorem holder_unique (reached : (machine size callers).Reachable (initial size callers) pool)
    {request : Request} {w w' : Fin size} (held : (pool.worker w).request? = some request)
    (held' : (pool.worker w').request? = some request) : w = w' := by
  have few := List.nodup_iff_count_le_one.mp (ledger_of_reachable reached).distinct request
  have bound := places_le reached request
  have light : inWorkers request pool.worker ≤ 1 := by
    unfold places at bound
    omega
  have heavy : ∀ {v : Fin size}, (pool.worker v).request? = some request →
      0 < (pool.worker v).request?.toList.count request := by
    intro v holds
    rw [holds, Option.toList_some, List.count_singleton_self]
    exact Nat.one_pos
  exact Threads.eq_of_total_le_one _ light (heavy held) (heavy held')

/-- Once `~WorkerPool` has finished and the workers have left, a request is
nowhere but among the destroyed ones. -/
theorem Ledger.places_of_finished (ledger : pool.Ledger) {c : Fin callers}
    (finished : pool.caller c = .destroyed) (ended : ∀ w, pool.worker w = .left)
    (request : Request) : pool.places request = pool.destroyed.count request := by
  have dead : pool.alive = false := ledger.books.lone.dead c (by rw [finished]; trivial)
  have workers : inWorkers request pool.worker = 0 :=
    Threads.total_eq_zero _ fun w => by rw [ended w]; rfl
  have others : inCallers request pool.caller = 0 := by
    refine Threads.total_eq_zero _ fun other => ?_
    have outside : (pool.caller other).owned? = none := by
      rcases ledger.books.lone.others dead other with idle | inside
      · rw [idle]
        rfl
      · generalize pool.caller other = pc at inside
        unfold Destructing at inside
        split at inside <;> first | rfl | exact inside.elim
    rw [outside]
    rfl
  rw [places, ledger.emptied c finished, workers, others, List.count_nil]
  rfl

/-- When the members of the pool are destroyed, every worker has left. A worker that
goes on in a destroyed pool reads memory that has been freed: `~Queue` leaves
`mpLastItem` as it is, and a `pull()` after it would follow that pointer to a request
that has been deleted. -/
def DestroysAlone (pool : WorkerPool size callers) : Action size callers → Prop
  | .destroyQueue _ _ => ∀ w, pool.worker w = .left
  | _ => True

instance (pool : WorkerPool size callers) : DecidablePred pool.DestroysAlone := fun action => by
  unfold DestroysAlone
  split <;> infer_instance

/-- Where the workers have left before it, they have left when `~WorkerPool` has finished. -/
theorem left_of_destroyed {actions : List (Action size callers)}
    {final : WorkerPool size callers}
    (ran : (machine size callers).run (initial size callers) actions = some final)
    (alone : (machine size callers).Steps DestroysAlone (initial size callers) actions)
    {c : Fin callers} (finished : final.caller c = .destroyed) (w : Fin size) :
    final.worker w = .left := by
  have preserved : ∀ (pool : WorkerPool size callers) (action : Action size callers)
      (next : WorkerPool size callers),
      ((∃ c, pool.caller c = .destroyed) → ∀ w, pool.worker w = .left) →
        pool.DestroysAlone action → (machine size callers).step pool action = some next →
          (∃ c, next.caller c = .destroyed) → ∀ w, next.worker w = .left := by
    rintro pool action next ended alone taken ⟨c, finished⟩ w
    refine left_stays taken ?_
    rcases destroyed_of_step taken finished with before | ⟨i, rfl⟩
    · exact ended ⟨c, before⟩ w
    · exact alone w
  have start : (∃ c, (initial size callers).caller c = .destroyed) →
      ∀ w, (initial size callers).worker w = .left := by
    rintro ⟨c, impossible⟩
    cases impossible
  exact (machine size callers).run_invariant _ preserved start alone ran ⟨c, finished⟩ w

end WorkerPool

end MSrv
