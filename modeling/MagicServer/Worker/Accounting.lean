import MagicServer.Worker.Steps
import Mathlib.Data.List.Nodup
import Mathlib.Data.List.Count

/-!
# Where the requests are

Requests leave the queue in the order in which they were pushed, each to one
worker, which passes it to the handler once. The final requests of `shutdown()`
never enter the queue.
-/

namespace MSrv

/-- The request in the hands of a worker. -/
def WorkerPc.request? : WorkerPc → Option Request
  | .calling request | .handling request => some request
  | .testing | .waiting | .asleep | .woken | .pulling | .left => none

/-- The final request a caller carries through `shutdown()`. -/
def CallerPc.final? : CallerPc → Option Request
  | .testing final | .setting final | .broadcasting final | .joining final _ => final
  | .finalizing request => some request
  | .idle | .signalling _ | .handlingFinal _ | .destructing | .deleting _ | .destroyed => none

namespace WorkerPool

variable {size callers : Nat}

/-- The invariant on the lists of requests and on the requests in the hands of workers. -/
structure Accounts (pool : WorkerPool size callers) : Prop where
  pushed_issued : ∀ request ∈ pool.pushed, request ∈ pool.issued
  pushed_nodup : pool.pushed.Nodup
  pushed_type : ∀ request ∈ pool.pushed, request.getType ≠ .shutdown
  order : pool.pulled ++ pool.mRequestQueue = pool.pushed ∨
    (pool.alive = false ∧ pool.mRequestQueue = [] ∧ pool.pulled <+: pool.pushed)
  calling : ∀ w request, pool.worker w = .calling request →
    request ∈ pool.pulled ∧ request ∉ pool.handled
  calling_unique : ∀ w w' request, pool.worker w = .calling request →
    pool.worker w' = .calling request → w = w'
  called : ∀ request ∈ pool.pulled,
    pool.handled.count request = 1 ∨ ∃ w, pool.worker w = .calling request
  handled : ∀ request ∈ pool.handled, request ∈ pool.pulled ∨ request.getType = .shutdown

theorem accounts_initial : (initial size callers).Accounts where
  pushed_issued _ member := nomatch member
  pushed_nodup := List.nodup_nil
  pushed_type _ member := nomatch member
  order := Or.inl rfl
  calling _ _ calling := nomatch calling
  calling_unique _ _ _ calling := nomatch calling
  called _ member := nomatch member
  handled _ member := nomatch member

variable {pool next : WorkerPool size callers} {action : Action size callers}

/-- What has been pulled has been pushed. -/
theorem Accounts.pulled_pushed (accounts : pool.Accounts) {request : Request}
    (pulled : request ∈ pool.pulled) : request ∈ pool.pushed := by
  rcases accounts.order with whole | ⟨_, _, before⟩
  · rw [← whole]
    exact List.mem_append_left _ pulled
  · exact before.subset pulled

/-- What is queued has been pushed and has not been pulled. -/
theorem Accounts.queued (accounts : pool.Accounts) {request : Request}
    (queued : request ∈ pool.mRequestQueue) :
    request ∈ pool.pushed ∧ request ∉ pool.pulled := by
  rcases accounts.order with whole | ⟨_, empty, _⟩
  · have distinct := accounts.pushed_nodup
    rw [← whole] at distinct ⊢
    exact ⟨List.mem_append_right _ queued,
      fun pulled => (List.nodup_append.mp distinct).2.2 _ pulled _ queued rfl⟩
  · rw [empty] at queued
    cases queued

/-- A step that leaves the lists alone and moves no request between hands keeps
the accounts. -/
theorem Accounts.frame (accounts : pool.Accounts)
    (issued : ∀ request ∈ pool.issued, request ∈ next.issued)
    (pushed : next.pushed = pool.pushed) (pulled : next.pulled = pool.pulled)
    (handled : next.handled = pool.handled) (queue : next.mRequestQueue = pool.mRequestQueue)
    (alive : pool.alive = false → next.alive = false)
    (calling : ∀ w request, next.worker w = .calling request ↔ pool.worker w = .calling request) :
    next.Accounts where
  pushed_issued request member := issued _ (accounts.pushed_issued request (pushed ▸ member))
  pushed_nodup := pushed ▸ accounts.pushed_nodup
  pushed_type request member := accounts.pushed_type request (pushed ▸ member)
  order := by
    rw [pulled, queue, pushed]
    exact accounts.order.imp_right fun ⟨dead, rest⟩ => ⟨alive dead, rest⟩
  calling w request holds := by
    rw [pulled, handled]
    exact accounts.calling w request ((calling w request).mp holds)
  calling_unique w w' request holds holds' :=
    accounts.calling_unique w w' request ((calling w request).mp holds)
      ((calling w' request).mp holds')
  called request member := by
    rw [handled]
    exact (accounts.called request (pulled ▸ member)).imp_right
      fun ⟨w, holds⟩ => ⟨w, (calling w request).mpr holds⟩
  handled request member := by
    rw [pulled]
    exact accounts.handled request (handled ▸ member)

/-- A worker that moves between places where it holds no request to pass on
leaves the hands as they are. -/
theorem calling_goWorker {w : Fin size} {before after : WorkerPc}
    (here : pool.worker w = before) (empty : ∀ request, before ≠ .calling request)
    (empty' : ∀ request, after ≠ .calling request) (v : Fin size) (request : Request) :
    pool.goWorker w after v = .calling request ↔ pool.worker v = .calling request := by
  by_cases same : v = w
  · subst same
    rw [goWorker, Function.update_self, here]
    exact iff_of_false (empty' request) (empty request)
  · rw [goWorker, Function.update_of_ne same]

/-- A new request enters the queue at its end. -/
theorem Accounts.push (accounts : pool.Accounts) {request : Request} (alive : pool.alive = true)
    (new : request ∉ pool.issued) (kind : request.getType ≠ .shutdown)
    (caller : Fin callers → CallerPc) :
    Accounts { pool with
      caller := caller
      mRequestQueue := pool.mRequestQueue ++ [request]
      issued := pool.issued ++ [request]
      pushed := pool.pushed ++ [request] } where
  pushed_issued other member := by
    rcases List.mem_append.mp member with old | here
    · exact List.mem_append_left _ (accounts.pushed_issued other old)
    · exact List.mem_append_right _ here
  pushed_nodup := by
    refine List.nodup_append.mpr ⟨accounts.pushed_nodup, List.nodup_singleton _, ?_⟩
    rintro other old _ here rfl
    rw [List.mem_singleton.mp here] at old
    exact new (accounts.pushed_issued request old)
  pushed_type other member := by
    rcases List.mem_append.mp member with old | here
    · exact accounts.pushed_type other old
    · rw [List.mem_singleton.mp here]
      exact kind
  order := by
    rcases accounts.order with whole | ⟨dead, _⟩
    · left
      rw [← List.append_assoc, whole]
    · exact absurd alive (by rw [dead]; exact nofun)
  calling := accounts.calling
  calling_unique := accounts.calling_unique
  called := accounts.called
  handled := accounts.handled

/-- The oldest request in the queue passes into the hands of one worker. -/
theorem Accounts.pull (accounts : pool.Accounts) {w : Fin size} {request : Request}
    (here : pool.worker w = .pulling) (oldest : pool.mRequestQueue.head? = some request) :
    Accounts (pool.effect (.pull w request)) := by
  obtain ⟨rest, queue⟩ : ∃ rest, pool.mRequestQueue = request :: rest :=
    List.head?_eq_some_iff.mp oldest
  have queued : request ∈ pool.mRequestQueue := by rw [queue]; exact List.mem_cons_self
  have unpulled := (accounts.queued queued).2
  have unhandled : request ∉ pool.handled := by
    intro handled
    rcases accounts.handled request handled with pulled | final
    · exact unpulled pulled
    · exact accounts.pushed_type request (accounts.queued queued).1 final
  have free : ∀ v, pool.worker v ≠ .calling request := fun v holds =>
    unpulled (accounts.calling v request holds).1
  -- Who holds which request afterwards.
  have hands : ∀ v other, pool.goWorker w (.calling request) v = .calling other →
      (v = w ∧ other = request) ∨ (v ≠ w ∧ pool.worker v = .calling other) := by
    intro v other holds
    rcases Threads.of_update (p := fun _ pc => pc = WorkerPc.calling other) holds with
      ⟨same, moved⟩ | old
    · cases moved
      exact Or.inl ⟨same, rfl⟩
    · exact Or.inr old
  refine ⟨accounts.pushed_issued, accounts.pushed_nodup, accounts.pushed_type, ?_, ?_, ?_, ?_, ?_⟩
  · rcases accounts.order with whole | ⟨_, empty, _⟩
    · left
      simp only [effect, queue, List.tail_cons, List.append_assoc, List.singleton_append]
      rw [← queue, whole]
    · rw [empty] at queue
      cases queue
  · intro v other holds
    rcases hands v other holds with ⟨_, rfl⟩ | ⟨_, old⟩
    · exact ⟨List.mem_append_right _ (List.mem_singleton_self _), unhandled⟩
    · exact ⟨List.mem_append_left _ (accounts.calling v other old).1,
        (accounts.calling v other old).2⟩
  · intro v v' other holds holds'
    rcases hands v other holds with ⟨same, rfl⟩ | ⟨_, old⟩ <;>
      rcases hands v' other holds' with ⟨same', here'⟩ | ⟨_, old'⟩
    · exact same.trans same'.symm
    · exact absurd old' (free v')
    · exact absurd (here' ▸ old) (free v)
    · exact accounts.calling_unique v v' other old old'
  · intro other member
    rcases List.mem_append.mp member with old | here'
    · rcases accounts.called other old with once | holds
      · exact Or.inl once
      · refine Or.inr (Threads.exists_update (p := fun _ pc => pc = WorkerPc.calling other) holds
          fun calling => ?_)
        cases here.symm.trans calling
    · rw [List.mem_singleton.mp here']
      exact Or.inr ⟨w, Function.update_self ..⟩
  · intro other member
    exact (accounts.handled other member).imp_left (List.mem_append_left _)

/-- A worker passes the request in its hands to the handler. -/
theorem Accounts.call (accounts : pool.Accounts) {w : Fin size} {request : Request}
    (here : pool.worker w = .calling request) : Accounts (pool.effect (.call w request)) := by
  obtain ⟨pulled, unhandled⟩ := accounts.calling w request here
  have hands : ∀ v other, pool.goWorker w (.handling request) v = .calling other →
      v ≠ w ∧ pool.worker v = .calling other := by
    intro v other holds
    rcases Threads.of_update (p := fun _ pc => pc = WorkerPc.calling other) holds with
      ⟨_, moved⟩ | old
    · cases moved
    · exact old
  have count_other : ∀ other, other ≠ request →
      (pool.handled ++ [request]).count other = pool.handled.count other := by
    intro other different
    rw [List.count_append, List.count_singleton, if_neg (by simpa using different.symm),
      Nat.add_zero]
  refine ⟨accounts.pushed_issued, accounts.pushed_nodup, accounts.pushed_type, accounts.order,
    ?_, ?_, ?_, ?_⟩
  · intro v other holds
    obtain ⟨different, old⟩ := hands v other holds
    refine ⟨(accounts.calling v other old).1, fun member => ?_⟩
    rcases List.mem_append.mp member with earlier | now
    · exact (accounts.calling v other old).2 earlier
    · rw [List.mem_singleton.mp now] at old
      exact different (accounts.calling_unique v w request old here)
  · intro v v' other holds holds'
    exact accounts.calling_unique v v' other (hands v other holds).2 (hands v' other holds').2
  · intro other member
    by_cases same : other = request
    · subst same
      left
      simp only [effect, List.count_append, List.count_eq_zero_of_not_mem unhandled,
        List.count_singleton_self, Nat.zero_add]
    · rcases accounts.called other member with once | holds
      · exact Or.inl ((count_other other same).trans once)
      · refine Or.inr (Threads.exists_update (p := fun _ pc => pc = WorkerPc.calling other) holds
          fun calling => ?_)
        cases here.symm.trans calling
        exact absurd rfl same
  · intro other member
    rcases List.mem_append.mp member with earlier | now
    · exact accounts.handled other earlier
    · rw [List.mem_singleton.mp now]
      exact Or.inl pulled

/-- `shutdown()` passes its final request, which never was in the queue, to the handler. -/
theorem Accounts.callFinal (accounts : pool.Accounts) {c : Fin callers} {request : Request}
    (final : request.getType = .shutdown) : Accounts (pool.effect (.callFinal c request)) := by
  have apart : ∀ other ∈ pool.pulled, other ≠ request := fun other pulled same =>
    accounts.pushed_type other (accounts.pulled_pushed pulled) (same ▸ final)
  refine ⟨accounts.pushed_issued, accounts.pushed_nodup, accounts.pushed_type, accounts.order,
    ?_, accounts.calling_unique, ?_, ?_⟩
  · intro w other holds
    obtain ⟨pulled, unhandled⟩ := accounts.calling w other holds
    refine ⟨pulled, fun member => ?_⟩
    rcases List.mem_append.mp member with earlier | now
    · exact unhandled earlier
    · exact apart other pulled (List.mem_singleton.mp now)
  · intro other pulled
    refine (accounts.called other pulled).imp_left fun once => ?_
    simp only [effect, List.count_append, List.count_singleton]
    rw [if_neg (by simpa using (apart other pulled).symm), Nat.add_zero, once]
  · intro other member
    rcases List.mem_append.mp member with earlier | now
    · exact accounts.handled other earlier
    · rw [List.mem_singleton.mp now]
      exact Or.inr final

/-- `~WorkerPool` destroys the queue with the requests that are still in it. -/
theorem Accounts.destroyQueue (accounts : pool.Accounts) {c : Fin callers} {i : Nat}
    (dead : pool.alive = false) : Accounts (pool.effect (.destroyQueue c i)) where
  pushed_issued := accounts.pushed_issued
  pushed_nodup := accounts.pushed_nodup
  pushed_type := accounts.pushed_type
  order := by
    refine Or.inr ⟨dead, rfl, ?_⟩
    rcases accounts.order with whole | ⟨_, _, before⟩
    · exact ⟨pool.mRequestQueue, whole⟩
    · exact before
  calling := accounts.calling
  calling_unique := accounts.calling_unique
  called := accounts.called
  handled := accounts.handled

/-- The final requests in the hands of callers have the type `Shutdown`. -/
def FinalsTyped (pool : WorkerPool size callers) : Prop :=
  ∀ c request, (pool.caller c).final? = some request → request.getType = .shutdown

theorem FinalsTyped.step (finals : pool.FinalsTyped)
    (taken : (machine size callers).step pool action = some next) : next.FinalsTyped := by
  intro c request holds
  have move := callerStep taken c
  have before := finals c
  generalize pool.caller c = pc at move before
  generalize next.caller c = pc' at move holds
  cases move with
  | stay | test | set | broadcast | join | joinEnd => exact before request holds
  | shutdown final _ _ kind =>
      cases holds
      exact kind
  | _ => cases holds

/-- Every step keeps the accounts. -/
theorem Accounts.step (accounts : pool.Accounts) (lone : pool.Lone) (finals : pool.FinalsTyped)
    (taken : (machine size callers).step pool action = some next) : next.Accounts := by
  obtain ⟨enabled, rfl⟩ := machine_step.mp taken
  cases action with
  | process c request =>
      obtain ⟨alive, _, new⟩ := enabled
      by_cases final : request.getType = .shutdown
      · rw [effect_process_shutdown pool c final]
        exact accounts.frame (fun _ => List.mem_append_left _) rfl rfl rfl rfl id fun _ _ => Iff.rfl
      · rw [effect_process_push pool c final]
        exact accounts.push alive new final _
  | signal c request target =>
      refine accounts.frame (fun _ => id) rfl rfl rfl rfl id ?_
      cases target with
      | none => exact fun _ _ => Iff.rfl
      | some w => exact calling_goWorker enabled.2 (fun _ => nofun) fun _ => nofun
  | broadcast c final =>
      refine accounts.frame (fun _ => id) rfl rfl rfl rfl id fun w request => ?_
      rw [effect_broadcast_worker]
      split_ifs with asleep
      · rw [asleep]
        exact iff_of_false nofun nofun
      · exact Iff.rfl
  | destruct c =>
      exact accounts.frame (fun _ => id) rfl rfl rfl rfl (fun _ => rfl) fun _ _ => Iff.rfl
  | destroyQueue c i =>
      exact accounts.destroyQueue (lone.dead c (by rw [enabled.1]; trivial))
  | testWorker w =>
      refine accounts.frame (fun _ => id) rfl rfl rfl rfl id
        (calling_goWorker enabled (fun _ => nofun) fun request => ?_)
      split_ifs <;> exact nofun
  | sleep w | wake w | resume w | finish w request =>
      exact accounts.frame (fun _ => id) rfl rfl rfl rfl id
        (calling_goWorker enabled (fun _ => nofun) fun _ => nofun)
  | pullNull w =>
      exact accounts.frame (fun _ => id) rfl rfl rfl rfl id
        (calling_goWorker enabled.1 (fun _ => nofun) fun _ => nofun)
  | pull w request => exact accounts.pull enabled.1 enabled.2
  | call w request => exact accounts.call enabled
  | callFinal c request => exact accounts.callFinal (finals c request (by rw [enabled]; rfl))
  | _ => exact accounts.frame (fun _ => id) rfl rfl rfl rfl id fun _ _ => Iff.rfl

theorem accounts_of_reachable
    (reached : (machine size callers).Reachable (initial size callers) pool) :
    pool.Accounts ∧ pool.FinalsTyped := by
  have all : pool.Lone ∧ pool.FinalsTyped ∧ pool.Accounts := by
    refine reached.invariant (fun pool =>
      pool.Lone ∧ pool.FinalsTyped ∧ pool.Accounts) ?_
      ⟨lone_initial, fun _ _ => nofun, accounts_initial⟩
    rintro pool action next ⟨lone, finals, accounts⟩ taken
    exact ⟨lone.step taken, finals.step taken, accounts.step lone finals taken⟩
  exact ⟨all.2.2, all.2.1⟩

/-- A worker gets its request by a pull. -/
theorem held_step (taken : (machine size callers).step pool action = some next) {w : Fin size}
    {request : Request} (held : (next.worker w).request? = some request) :
    (pool.worker w).request? = some request ∨ action = .pull w request := by
  obtain ⟨enabled, rfl⟩ := machine_step.mp taken
  -- A worker that moves holds what it holds at its new place.
  have moved : ∀ {v : Fin size} {before after : WorkerPc}, pool.worker v = before →
      (pool.goWorker v after w).request? = some request →
      (pool.worker w).request? = some request ∨ (w = v ∧ after.request? = some request) := by
    intro v before after here holds
    rcases Threads.of_update (p := fun _ (pc : WorkerPc) => pc.request? = some request) holds with
      arrived | ⟨_, stayed⟩
    · exact Or.inr arrived
    · exact Or.inl stayed
  cases action with
  | process c request =>
      rw [effect_process_worker] at held
      exact Or.inl held
  | signal c request target =>
      cases target with
      | none => exact Or.inl held
      | some v => exact (moved enabled.2 held).imp_right fun ⟨_, impossible⟩ => nomatch impossible
  | broadcast c final =>
      rw [effect_broadcast_worker] at held
      split_ifs at held
      · cases held
      · exact Or.inl held
  | testWorker v =>
      refine (moved enabled held).imp_right fun ⟨_, impossible⟩ => ?_
      split_ifs at impossible <;> cases impossible
  | sleep v | wake v | resume v =>
      exact (moved enabled held).imp_right fun ⟨_, impossible⟩ => nomatch impossible
  | finish v => exact (moved enabled held).imp_right fun ⟨_, impossible⟩ => nomatch impossible
  | pullNull v => exact (moved enabled.1 held).imp_right fun ⟨_, impossible⟩ => nomatch impossible
  | pull v pulled =>
      rcases moved enabled.1 held with stayed | ⟨rfl, here⟩
      · exact Or.inl stayed
      · cases here
        exact Or.inr rfl
  | call v called =>
      rcases moved enabled held with stayed | ⟨rfl, here⟩
      · exact Or.inl stayed
      · cases here
        left
        rw [show pool.worker w = .calling request from enabled]
        rfl
  | _ => exact Or.inl held

/-- Only `process()` pushes, and only requests it is given for the first time. -/
theorem pushed_step (taken : (machine size callers).step pool action = some next) :
    next.pushed = pool.pushed ∨ ∃ c request, action = .process c request ∧
      request ∉ pool.issued ∧ next.pushed = pool.pushed ++ [request] := by
  rcases queue_step taken with
    ⟨same, _⟩ | ⟨request, new, grown, _, _, c, rfl⟩ | ⟨_, _, _, _, _, same, _⟩ | ⟨_, same, _⟩
  · exact Or.inl same
  · exact Or.inr ⟨c, request, rfl, new, grown⟩
  · exact Or.inl same
  · exact Or.inl same

/-- What has been pulled stays pulled. -/
theorem pulled_mono (taken : (machine size callers).step pool action = some next)
    {request : Request} (pulled : request ∈ pool.pulled) : request ∈ next.pulled := by
  rcases queue_step taken with
    ⟨_, same, _⟩ | ⟨_, _, _, same, _⟩ | ⟨_, _, _, _, _, _, grown, _⟩ | ⟨_, _, same, _⟩
  · rwa [same]
  · rwa [same]
  · rw [grown]
    exact List.mem_append_left _ pulled
  · rwa [same]

/-- A request in the hands of a worker has been pulled. -/
theorem held_pulled (reached : (machine size callers).Reachable (initial size callers) pool)
    {w : Fin size} {request : Request} (held : (pool.worker w).request? = some request) :
    request ∈ pool.pulled := by
  refine reached.invariant (fun pool => ∀ w request, (pool.worker w).request? = some request →
    request ∈ pool.pulled) (fun pool action next ih taken w request held => ?_)
    (fun w request held => by cases held) w request held
  rcases held_step taken held with before | rfl
  · exact pulled_mono taken (ih w request before)
  · obtain ⟨_, rfl⟩ := machine_step.mp taken
    exact List.mem_append_right _ (List.mem_singleton_self _)

end WorkerPool

end MSrv
