import MagicServer.Worker.Accounting
import Mathlib.Data.List.TakeWhile

/-!
# The order in which the handler gets the requests

Requests leave the queue in their order, but a worker that holds one may be
slower than another worker that holds a later one. A request overtakes only what
is in the hands of the other workers at that moment.
-/

namespace MSrv

/-- The requests that stand before the first occurrence of one of them. -/
def Request.before (request : Request) (requests : List Request) : List Request :=
  requests.takeWhile (· ≠ request)

namespace Request

variable {request other : Request} {requests later : List Request}

theorem mem_of_before (member : other ∈ request.before requests) : other ∈ requests :=
  (List.takeWhile_sublist _).subset member

theorem ne_of_before (member : other ∈ request.before requests) : other ≠ request :=
  of_decide_eq_true (List.mem_takeWhile_imp (p := fun other => decide (other ≠ request)) member)

/-- What is added behind it changes nothing about what stands before. -/
theorem before_append (member : request ∈ requests) :
    request.before (requests ++ later) = request.before requests := by
  induction requests with
  | nil => cases member
  | cons first rest ih =>
      unfold before at ih ⊢
      by_cases same : first = request
      · rw [List.cons_append, List.takeWhile_cons_of_neg (by simp [same]),
          List.takeWhile_cons_of_neg (by simp [same])]
      · rw [List.cons_append, List.takeWhile_cons_of_pos (by simp [same]),
          List.takeWhile_cons_of_pos (by simp [same]),
          ih (List.mem_of_ne_of_mem (Ne.symm same) member)]

/-- A new request has all others before it. -/
theorem before_append_self (absent : request ∉ requests) :
    request.before (requests ++ [request]) = requests := by
  have whole : ∀ other ∈ requests, decide (other ≠ request) = true := fun other member =>
    decide_eq_true fun same => absent (same ▸ member)
  rw [before, List.takeWhile_append_of_pos whole, List.takeWhile_cons_of_neg (by simp),
    List.append_nil]

end Request

namespace WorkerPool

variable {size callers : Nat} {pool next : WorkerPool size callers}
  {action : Action size callers} {request : Request}

/-- The requests that were pushed before `request` and that the handler did not
get before it. -/
def overtaken (pool : WorkerPool size callers) (request : Request) : List Request :=
  (request.before pool.pushed).filter (· ∉ request.before pool.handled)

/-- Later pushes and later calls of the handler change nothing about it. -/
theorem overtaken_append {pushed handled : List Request} (old : request ∈ pool.pushed)
    (done : request ∈ pool.handled) (grown : next.pushed = pool.pushed ++ pushed)
    (more : next.handled = pool.handled ++ handled) :
    next.overtaken request = pool.overtaken request := by
  unfold overtaken
  rw [grown, more, Request.before_append old, Request.before_append done]

/-- When a worker passes its request to the handler, each request that is
overtaken is in the hands of another worker. -/
theorem Accounts.overtaken_call (accounts : pool.Accounts) {w : Fin size}
    (here : pool.worker w = .calling request) :
    ((pool.effect (.call w request)).overtaken request).length < size := by
  obtain ⟨pulled, unhandled⟩ := accounts.calling w request here
  have held : ∀ other ∈ (pool.effect (.call w request)).overtaken request,
      ∃ v ≠ w, pool.worker v = .calling other := by
    intro other member
    obtain ⟨ahead, late⟩ := List.mem_filter.mp member
    have earlier : other ∈ request.before pool.pulled := by
      rcases accounts.order with whole | ⟨_, _, rest, whole⟩ <;>
        rw [← Request.before_append pulled, whole] <;> exact ahead
    have waiting : other ∉ pool.handled := by
      have rest := of_decide_eq_true late
      rwa [effect, Request.before_append_self unhandled] at rest
    obtain ⟨v, calling⟩ := (accounts.called other (Request.mem_of_before earlier)).resolve_left
      fun once => waiting (List.count_pos_iff.mp (once ▸ Nat.one_pos))
    refine ⟨v, fun same => Request.ne_of_before earlier ?_, calling⟩
    subst same
    cases calling.symm.trans here
    rfl
  have distinct : ((pool.effect (.call w request)).overtaken request).Nodup :=
    (accounts.pushed_nodup.sublist (List.takeWhile_sublist _)).filter _
  have few := Threads.length_lt_card w (fun v other => pool.worker v = .calling other) distinct
    held fun v other other' calling calling' => by
      cases calling.symm.trans calling'
      rfl
  rwa [Fintype.card_fin] at few

/-- A step pushes behind what has been pushed, and the handler gets a request from
a worker or, as the last one of `shutdown()`, from a caller. -/
theorem handled_step (taken : (machine size callers).step pool action = some next) :
    (∃ pushed, next.pushed = pool.pushed ++ pushed) ∧
      (next.handled = pool.handled ∨
        (∃ w request, action = .call w request ∧ next.handled = pool.handled ++ [request]) ∨
        ∃ c request, pool.caller c = .finalizing request ∧
          next.handled = pool.handled ++ [request]) := by
  obtain ⟨enabled, rfl⟩ := machine_step.mp taken
  cases action with
  | process c request =>
      by_cases final : request.getType = .shutdown
      · rw [effect_process_shutdown pool c final]
        exact ⟨⟨[], (List.append_nil _).symm⟩, Or.inl rfl⟩
      · rw [effect_process_push pool c final]
        exact ⟨⟨[request], rfl⟩, Or.inl rfl⟩
  | call w request => exact ⟨⟨[], (List.append_nil _).symm⟩, Or.inr (Or.inl ⟨w, request, rfl, rfl⟩)⟩
  | callFinal c request =>
      exact ⟨⟨[], (List.append_nil _).symm⟩, Or.inr (Or.inr ⟨c, request, enabled, rfl⟩)⟩
  | _ => exact ⟨⟨[], (List.append_nil _).symm⟩, Or.inl rfl⟩

/-- No request that the handler has got has overtaken as many as there are workers. -/
def Ordered (pool : WorkerPool size callers) : Prop :=
  ∀ request ∈ pool.handled, request ∈ pool.pushed → (pool.overtaken request).length < size

theorem Ordered.step (ordered : pool.Ordered) (accounts : pool.Accounts)
    (finals : pool.FinalsTyped) (after : next.Accounts)
    (taken : (machine size callers).step pool action = some next) : next.Ordered := by
  obtain ⟨⟨pushed, grown⟩, more⟩ := handled_step taken
  intro request handled known
  -- A request that was there before has been pushed before.
  have kept : ∀ handled, request ∈ pool.handled → next.handled = pool.handled ++ handled →
      (next.overtaken request).length < size := by
    intro handled before more
    have old : request ∈ pool.pushed := by
      refine (accounts.handled request before).elim accounts.pulled_pushed fun final => ?_
      exact absurd final (after.pushed_type request known)
    rw [overtaken_append old before grown more]
    exact ordered request before old
  rcases more with same | ⟨w, called, rfl, more⟩ | ⟨c, called, finalizing, more⟩
  · exact kept [] (same ▸ handled) (by rw [same, List.append_nil])
  · rcases List.mem_append.mp (more ▸ handled) with before | now
    · exact kept [called] before more
    · cases List.mem_singleton.mp now
      obtain ⟨here, rfl⟩ := machine_step.mp taken
      exact accounts.overtaken_call here
  · rcases List.mem_append.mp (more ▸ handled) with before | now
    · exact kept [called] before more
    · cases List.mem_singleton.mp now
      have final := finals c request (by rw [finalizing]; rfl)
      exact absurd final (after.pushed_type request known)

/-- Every request that the handler gets has overtaken fewer requests than there
are workers. -/
theorem overtaken_lt_size
    (reached : (machine size callers).Reachable (initial size callers) pool)
    (pushed : request ∈ pool.pushed) (handled : request ∈ pool.handled) :
    (pool.overtaken request).length < size := by
  have all : (pool.Lone ∧ pool.FinalsTyped ∧ pool.Accounts) ∧ pool.Ordered := by
    refine reached.invariant (fun pool =>
      (pool.Lone ∧ pool.FinalsTyped ∧ pool.Accounts) ∧ pool.Ordered) ?_
      ⟨⟨lone_initial, fun _ _ => nofun, accounts_initial⟩, fun _ handled => nomatch handled⟩
    intro pool action next ⟨⟨lone, finals, accounts⟩, ordered⟩ taken
    have after := accounts.step lone finals taken
    exact ⟨⟨lone.step taken, finals.step taken, after⟩,
      ordered.step accounts finals after taken⟩
  exact all.2 request handled pushed

/-- Of two workers the second one is faster and overtakes the first. -/
theorem overtaken_lt_size_two :
    ∃ final, (machine 2 2).run (initial 2 2)
        [.testWorker 0, .sleep 0, .testWorker 1, .sleep 1, .process 0 sampleRequest,
          .process 1 ⟨3, 7, .timeout⟩, .signal 0 sampleRequest (some 0), .resume 0,
          .pull 0 sampleRequest, .signal 1 ⟨3, 7, .timeout⟩ (some 1), .resume 1,
          .pull 1 ⟨3, 7, .timeout⟩, .call 1 ⟨3, 7, .timeout⟩] = some final ∧
      final.overtaken ⟨3, 7, .timeout⟩ = [sampleRequest] ∧
      (final.overtaken ⟨3, 7, .timeout⟩).length < 2 :=
  ⟨_, rfl, by decide, overtaken_lt_size ⟨[.testWorker 0, .sleep 0, .testWorker 1, .sleep 1,
    .process 0 sampleRequest, .process 1 ⟨3, 7, .timeout⟩, .signal 0 sampleRequest (some 0),
    .resume 0, .pull 0 sampleRequest, .signal 1 ⟨3, 7, .timeout⟩ (some 1), .resume 1,
    .pull 1 ⟨3, 7, .timeout⟩, .call 1 ⟨3, 7, .timeout⟩], rfl⟩ (by decide) (by decide)⟩

end WorkerPool

end MSrv
