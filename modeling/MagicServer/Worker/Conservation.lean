import MagicServer.Container.Queue
import MagicServer.Worker.Ownership

/-!
# The pool on its linked queue

The worker pool with `mRequestQueue` as the doubly linked list of the source:
what is pulled is what the pointers lead to. The pool on a list of requests
describes it exactly, and from there follows where every pushed request is.
-/

namespace MSrv

/-- A pool and the linked queue of its requests. `pool` has the rest of the state;
its list of queued requests says what the queue should hold, and no step of the
linked pool looks at it. -/
structure LinkedPool (size callers : Nat) where
  pool : WorkerPool size callers
  mRequestQueue : Queue Request

namespace LinkedPool

open WorkerPool (Action sampleRequest)

variable {size callers : Nat}

/-- The pool as its constructor leaves it. -/
def initial (size callers : Nat) : LinkedPool size callers where
  pool := .initial size callers
  mRequestQueue := .empty

/-- One step of one thread; the operations on the queue are those of the linked list. -/
def step (linked : LinkedPool size callers) (action : Action size callers) :
    Option (LinkedPool size callers) :=
  match action with
  | .process c request =>
      if linked.pool.Enabled (.process c request) then do
        let queue ←
          (match request.getType with
          | .shutdown => some linked.mRequestQueue
          | _ => linked.mRequestQueue.push (some request))
        some ⟨linked.pool.effect (.process c request), queue⟩
      else none
  | .pull w request =>
      if linked.pool.worker w = .pulling then do
        let (pRequest, queue) ← linked.mRequestQueue.pull
        if pRequest = some request then some ⟨linked.pool.effect (.pull w request), queue⟩ else none
      else none
  | .pullNull w =>
      if linked.pool.worker w = .pulling then do
        let (pRequest, queue) ← linked.mRequestQueue.pull
        if pRequest = none then some ⟨linked.pool.effect (.pullNull w), queue⟩ else none
      else none
  | .destroyQueue c i =>
      if linked.pool.Enabled (.destroyQueue c i) then do
        let queue ← linked.mRequestQueue.destroy
        some ⟨linked.pool.effect (.destroyQueue c i), queue⟩
      else none
  | action =>
      if linked.pool.Enabled action then some { linked with pool := linked.pool.effect action }
      else none

/-- The linked pool as a machine. -/
def machine (size callers : Nat) : Machine (LinkedPool size callers) (Action size callers) where
  step := step

/-- How the list of queued requests describes the linked queue: it is what the
queue holds, until `~WorkerPool` has destroyed the queue with what was in it. -/
inductive Coupled (linked : LinkedPool size callers) : Prop
  | standing : linked.mRequestQueue.Holds (linked.pool.mRequestQueue.map some) →
      linked.mRequestQueue.deleted = [] →
      linked.pool.pulled ++ linked.pool.mRequestQueue = linked.pool.pushed → Coupled linked
  | destroyed (c : Fin callers) : linked.pool.caller c = .destroyed →
      linked.mRequestQueue.Gone → linked.pool.mRequestQueue = [] →
      linked.pool.pulled <+: linked.pool.pushed →
      (linked.pool.pulled ++ linked.mRequestQueue.deleted).Perm linked.pool.pushed →
      Coupled linked

theorem coupled_initial : (initial size callers).Coupled :=
  .standing Queue.holds_empty rfl rfl

variable {linked next : LinkedPool size callers} {action : Action size callers}

/-- A step that leaves the queue alone keeps the coupling. -/
theorem Coupled.frame (coupled : linked.Coupled)
    (linked_queue : next.mRequestQueue = linked.mRequestQueue)
    (queue : next.pool.mRequestQueue = linked.pool.mRequestQueue)
    (pulled : next.pool.pulled = linked.pool.pulled)
    (pushed : next.pool.pushed = linked.pool.pushed)
    (stays : ∀ c, linked.pool.caller c = .destroyed → next.pool.caller c = .destroyed) :
    next.Coupled := by
  cases coupled with
  | standing holds deleted whole =>
      refine .standing ?_ ?_ ?_
      · rwa [linked_queue, queue]
      · rwa [linked_queue]
      · rwa [pulled, queue, pushed]
  | destroyed c finished gone empty before whole =>
      refine .destroyed c (stays c finished) ?_ ?_ ?_ ?_
      · rwa [linked_queue]
      · rwa [queue]
      · rwa [pulled, pushed]
      · rwa [pulled, linked_queue, pushed]

/-- A push puts the request where the list of queued requests has it. -/
theorem Coupled.push (coupled : linked.Coupled) {c : Fin callers} {request : Request}
    (alive : linked.pool.alive = true) (lone : linked.pool.Lone)
    (kind : request.getType ≠ .shutdown) {queue : Queue Request}
    (pushed : linked.mRequestQueue.push (some request) = some queue) :
    Coupled ⟨linked.pool.effect (.process c request), queue⟩ := by
  cases coupled with
  | standing holds deleted whole =>
      obtain ⟨queue', pushed', holds', deleted'⟩ := holds.push (some request)
      cases pushed.symm.trans pushed'
      rw [WorkerPool.effect_process_push linked.pool c kind]
      refine .standing ?_ (deleted'.trans deleted) ?_
      · rw [List.map_append]
        exact holds'
      · simp only [← List.append_assoc, whole]
  | destroyed c finished =>
      have dead := lone.dead c (by rw [finished]; trivial)
      cases dead.symm.trans alive

/-- A pull gets the request at the head of the list of queued requests. -/
theorem Coupled.pull (coupled : linked.Coupled) {w : Fin size} {request : Request}
    {queue : Queue Request}
    (pulled : linked.mRequestQueue.pull = some (some request, queue)) :
    linked.pool.mRequestQueue.head? = some request ∧
      Coupled ⟨linked.pool.effect (.pull w request), queue⟩ := by
  cases coupled with
  | standing holds deleted whole =>
      cases requests : linked.pool.mRequestQueue with
      | nil =>
          rw [requests] at holds
          cases holds.pull_nil.symm.trans pulled
      | cons oldest rest =>
          rw [requests, List.map_cons] at holds
          obtain ⟨queue', pulled', holds', deleted'⟩ := holds.pull
          cases pulled.symm.trans pulled'
          refine ⟨rfl, .standing ?_ (deleted'.trans deleted) ?_⟩
          · simp only [WorkerPool.effect, requests, List.tail_cons]
            exact holds'
          · rw [requests] at whole
            simp only [WorkerPool.effect, requests, List.tail_cons, List.append_assoc,
              List.singleton_append, whole]
  | destroyed c _ gone => cases (gone.pull pulled).1

/-- A pull gets nothing when the list of queued requests is empty. -/
theorem Coupled.pullNull (coupled : linked.Coupled) {w : Fin size} {queue : Queue Request}
    (pulled : linked.mRequestQueue.pull = some (none, queue)) :
    linked.pool.mRequestQueue = [] ∧ Coupled ⟨linked.pool.effect (.pullNull w), queue⟩ := by
  have same : linked.pool.mRequestQueue = [] ∧ queue = linked.mRequestQueue := by
    cases coupled with
    | standing holds deleted whole =>
        cases requests : linked.pool.mRequestQueue with
        | nil =>
            rw [requests] at holds
            cases holds.pull_nil.symm.trans pulled
            exact ⟨rfl, rfl⟩
        | cons oldest rest =>
            rw [requests, List.map_cons] at holds
            obtain ⟨_, pulled', _⟩ := holds.pull
            cases pulled.symm.trans pulled'
    | destroyed c _ gone empty => exact ⟨empty, (gone.pull pulled).2⟩
  exact ⟨same.1, coupled.frame same.2 rfl rfl rfl fun _ => id⟩

/-- The destructor of the queue deletes what the list of queued requests has. -/
theorem Coupled.destroyQueue (coupled : linked.Coupled) {c : Fin callers} {i : Nat}
    {queue : Queue Request} (destroyed : linked.mRequestQueue.destroy = some queue) :
    Coupled ⟨linked.pool.effect (.destroyQueue c i), queue⟩ := by
  have here : (linked.pool.effect (.destroyQueue c i)).caller c = .destroyed :=
    Function.update_self ..
  cases coupled with
  | standing holds deleted whole =>
      obtain ⟨queue', destroyed', gone, data⟩ := holds.destroy
      cases destroyed.symm.trans destroyed'
      refine .destroyed c here gone rfl ⟨_, whole⟩ ?_
      have requests : (linked.pool.mRequestQueue.map some).flatMap Option.toList =
          linked.pool.mRequestQueue := by
        rw [List.flatMap_map]
        exact List.flatMap_singleton' _
      rw [deleted, List.nil_append, requests] at data
      exact (List.Perm.append_left _ data).trans (.of_eq whole)
  | destroyed _ _ gone empty before whole =>
      cases gone.destroy destroyed
      exact .destroyed c here gone rfl before whole

/-- Every step of the linked pool is a step of the pool on a list. -/
theorem Coupled.step (coupled : linked.Coupled) (lone : linked.pool.Lone)
    (taken : (machine size callers).step linked action = some next) :
    (WorkerPool.machine size callers).step linked.pool action = some next.pool ∧ next.Coupled := by
  cases action with
  | process c request =>
      obtain ⟨enabled, performed⟩ := Option.ite_none_right_eq_some.mp taken
      obtain ⟨queue, pushed, rest⟩ := Option.bind_eq_some_iff.mp performed
      cases rest
      have stepped := WorkerPool.machine_step.mpr ⟨enabled, rfl⟩
      refine ⟨stepped, ?_⟩
      by_cases final : request.getType = .shutdown
      · rw [final] at pushed
        cases pushed
        refine coupled.frame rfl ?_ ?_ ?_ fun other => WorkerPool.destroyed_stays stepped
        all_goals rw [WorkerPool.effect_process_shutdown linked.pool _ final]
      · apply coupled.push enabled.1 lone final
        split at pushed
        · exact absurd ‹_› final
        · exact pushed
  | pull w request =>
      obtain ⟨pulling, performed⟩ := Option.ite_none_right_eq_some.mp taken
      obtain ⟨⟨pRequest, queue⟩, pulled, rest⟩ := Option.bind_eq_some_iff.mp performed
      obtain ⟨same, result⟩ := Option.ite_none_right_eq_some.mp rest
      cases same
      cases result
      obtain ⟨oldest, coupled⟩ := coupled.pull pulled
      exact ⟨WorkerPool.machine_step.mpr ⟨⟨pulling, oldest⟩, rfl⟩, coupled⟩
  | pullNull w =>
      obtain ⟨pulling, performed⟩ := Option.ite_none_right_eq_some.mp taken
      obtain ⟨⟨pRequest, queue⟩, pulled, rest⟩ := Option.bind_eq_some_iff.mp performed
      obtain ⟨same, result⟩ := Option.ite_none_right_eq_some.mp rest
      cases same
      cases result
      obtain ⟨empty, coupled⟩ := coupled.pullNull pulled
      exact ⟨WorkerPool.machine_step.mpr ⟨⟨pulling, empty⟩, rfl⟩, coupled⟩
  | destroyQueue c i =>
      obtain ⟨enabled, performed⟩ := Option.ite_none_right_eq_some.mp taken
      obtain ⟨queue, destroyed, rest⟩ := Option.bind_eq_some_iff.mp performed
      cases rest
      exact ⟨WorkerPool.machine_step.mpr ⟨enabled, rfl⟩, coupled.destroyQueue destroyed⟩
  | _ =>
      obtain ⟨enabled, rest⟩ := Option.ite_none_right_eq_some.mp taken
      cases rest
      have stepped := WorkerPool.machine_step.mpr ⟨enabled, rfl⟩
      exact ⟨stepped, coupled.frame rfl rfl rfl rfl fun _ => WorkerPool.destroyed_stays stepped⟩

/-- A reachable linked pool is a reachable pool coupled to its linked queue. -/
theorem coupled_of_reachable
    (reached : (machine size callers).Reachable (initial size callers) linked) :
    (WorkerPool.machine size callers).Reachable (.initial size callers) linked.pool ∧
      linked.Coupled := by
  refine reached.invariant (fun linked =>
    (WorkerPool.machine size callers).Reachable (.initial size callers) linked.pool ∧
      linked.Coupled) ?_ ⟨.refl _, coupled_initial⟩
  rintro linked action next ⟨reached, coupled⟩ taken
  obtain ⟨stepped, coupled⟩ :=
    coupled.step (WorkerPool.ledger_of_reachable reached).books.lone taken
  exact ⟨reached.step stepped, coupled⟩

/-- The one place in which a pushed request is: in the queue, in the hands of one
worker, with the handler called once for it, or deleted with the queue by
`~WorkerPool`. In the hands of a worker the handler has been called for it when
the worker is in that call. -/
inductive InOnePlace (linked : LinkedPool size callers) (request : Request) : Prop
  | queued : linked.mRequestQueue.items.count (some request) = 1 →
      request ∉ linked.pool.pulled →
      (∀ w, (linked.pool.worker w).request? ≠ some request) →
      request ∉ linked.pool.handled →
      request ∉ linked.mRequestQueue.deleted → InOnePlace linked request
  | held (w : Fin size) : some request ∉ linked.mRequestQueue.items →
      (∀ v, (linked.pool.worker v).request? = some request ↔ v = w) →
      linked.pool.handled.count request =
        (if linked.pool.worker w = .handling request then 1 else 0) →
      request ∉ linked.mRequestQueue.deleted → InOnePlace linked request
  | handled : some request ∉ linked.mRequestQueue.items →
      (∀ w, (linked.pool.worker w).request? ≠ some request) →
      linked.pool.handled.count request = 1 →
      request ∉ linked.mRequestQueue.deleted → InOnePlace linked request
  | deleted (c : Fin callers) : linked.pool.caller c = .destroyed →
      some request ∉ linked.mRequestQueue.items →
      request ∉ linked.pool.pulled →
      (∀ w, (linked.pool.worker w).request? ≠ some request) →
      request ∉ linked.pool.handled →
      linked.mRequestQueue.deleted.count request = 1 → InOnePlace linked request

section Places

open WorkerPool

variable (reached : (WorkerPool.machine size callers).Reachable (.initial size callers) linked.pool)
  {request : Request}

include reached

/-- A pushed request that has not been pulled is with no worker and has not been handled. -/
theorem untouched_of_not_pulled (pushed : request ∈ linked.pool.pushed)
    (unpulled : request ∉ linked.pool.pulled) :
    (∀ w, (linked.pool.worker w).request? ≠ some request) ∧ request ∉ linked.pool.handled := by
  obtain ⟨accounts, _⟩ := accounts_of_reachable reached
  refine ⟨fun w held => unpulled (held_pulled reached held), fun handled => ?_⟩
  rcases accounts.handled request handled with pulled | final
  · exact unpulled pulled
  · exact accounts.pushed_type request pushed final

/-- A pulled request is in the hands of one worker, or the handler has been
called for it once. -/
theorem inOnePlace_of_pulled (pulled : request ∈ linked.pool.pulled)
    (unqueued : some request ∉ linked.mRequestQueue.items)
    (undeleted : request ∉ linked.mRequestQueue.deleted) : linked.InOnePlace request := by
  obtain ⟨accounts, _⟩ := accounts_of_reachable reached
  by_cases held : ∃ w, (linked.pool.worker w).request? = some request
  · obtain ⟨w, held⟩ := held
    refine .held w unqueued (fun v => ⟨fun held' => holder_unique reached held' held, ?_⟩) ?_
      undeleted
    · rintro rfl
      exact held
    · cases here : linked.pool.worker w with
      | calling other =>
          rw [here] at held
          cases held
          rw [if_neg nofun]
          exact List.count_eq_zero_of_not_mem (accounts.calling w request here).2
      | handling other =>
          rw [here] at held
          cases held
          rw [if_pos rfl]
          rcases accounts.called request pulled with once | ⟨v, calling⟩
          · exact once
          · have same : v = w := holder_unique reached (by rw [calling]; rfl) (by rw [here]; rfl)
            rw [same, here] at calling
            cases calling
      | _ => rw [here] at held; cases held
  · rw [not_exists] at held
    refine .handled unqueued held ?_ undeleted
    rcases accounts.called request pulled with once | ⟨w, calling⟩
    · exact once
    · exact absurd (by rw [calling]; rfl) (held w)

end Places

/-- In every reachable state, what the workers together have pulled is a prefix
of what has been pushed, no request has been pulled twice, and every pushed
request is in one place. -/
theorem conserved_of_reachable
    (reached : (machine size callers).Reachable (initial size callers) linked) :
    linked.pool.pulled <+: linked.pool.pushed ∧ linked.pool.pulled.Nodup ∧
      ∀ request ∈ linked.pool.pushed, linked.InOnePlace request := by
  obtain ⟨reached, coupled⟩ := coupled_of_reachable reached
  obtain ⟨accounts, _⟩ := WorkerPool.accounts_of_reachable reached
  have distinct := accounts.pushed_nodup
  cases coupled with
  | standing holds deleted whole =>
      have items := holds.items
      rw [← whole] at distinct ⊢
      refine ⟨List.prefix_append .., (List.nodup_append.mp distinct).1, fun request member => ?_⟩
      obtain ⟨_, once, apart⟩ := List.nodup_append.mp distinct
      have undeleted : request ∉ linked.mRequestQueue.deleted := by
        rw [deleted]
        exact List.not_mem_nil
      rcases List.mem_append.mp member with pulled | queued
      · refine inOnePlace_of_pulled reached pulled ?_ undeleted
        rw [items, List.mem_map_of_injective (Option.some_injective _)]
        exact fun queued => apart request pulled request queued rfl
      · have unpulled : request ∉ linked.pool.pulled :=
          fun pulled => apart request pulled request queued rfl
        obtain ⟨free, unhandled⟩ := untouched_of_not_pulled reached (whole ▸ member) unpulled
        refine .queued ?_ unpulled free unhandled undeleted
        rw [items, List.count_map_of_injective _ _ (Option.some_injective _)]
        exact List.count_eq_one_of_mem once queued
  | destroyed c finished gone empty before whole =>
      refine ⟨before, distinct.sublist before.sublist, fun request pushed => ?_⟩
      have absent : some request ∉ linked.mRequestQueue.items := by
        rw [gone.items]
        exact List.not_mem_nil
      obtain ⟨_, once, apart⟩ := List.nodup_append.mp (whole.nodup_iff.mpr distinct)
      rcases List.mem_append.mp (whole.mem_iff.mpr pushed) with pulled | deleted
      · exact inOnePlace_of_pulled reached pulled absent
          fun deleted => apart request pulled request deleted rfl
      · have unpulled : request ∉ linked.pool.pulled :=
          fun pulled => apart request pulled request deleted rfl
        obtain ⟨free, unhandled⟩ := untouched_of_not_pulled reached pushed unpulled
        exact .deleted c finished absent unpulled free unhandled
          (List.count_eq_one_of_mem once deleted)

/-- Two threads push, one worker has pulled the older request, and the other
worker sleeps. -/
theorem conserved_of_reachable_run :
    ∃ final, (machine 2 2).run (initial 2 2)
        [.testWorker 1, .sleep 1, .testWorker 0, .sleep 0, .process 0 sampleRequest,
          .process 1 ⟨3, 7, .timeout⟩, .signal 1 ⟨3, 7, .timeout⟩ (some 0), .resume 0,
          .pull 0 sampleRequest, .call 0 sampleRequest] = some final ∧
      final.pool.pushed = [sampleRequest, ⟨3, 7, .timeout⟩] ∧
      final.pool.pulled = [sampleRequest] ∧
      final.mRequestQueue.items = [some ⟨3, 7, .timeout⟩] ∧
      ∀ request ∈ final.pool.pushed, final.InOnePlace request :=
  ⟨_, rfl, rfl, rfl, rfl, (conserved_of_reachable ⟨[.testWorker 1, .sleep 1, .testWorker 0,
    .sleep 0, .process 0 sampleRequest, .process 1 ⟨3, 7, .timeout⟩,
    .signal 1 ⟨3, 7, .timeout⟩ (some 0), .resume 0, .pull 0 sampleRequest,
    .call 0 sampleRequest], rfl⟩).2.2⟩

end LinkedPool

end MSrv
