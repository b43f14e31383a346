import MagicServer.Worker.Accounting

/-!
# What is left in the queue at shutdown

A worker empties the queue before it tests `mIsShutdown` again, but it tests the
flag before it has looked at the queue for the first time. Whether the requests
accepted before shutdown are handled is therefore decided when the flag is set.
-/

namespace MSrv

/-- A worker past its test of the flag: it empties the queue before the next test. -/
def WorkerPc.InLoop : WorkerPc → Prop
  | .waiting | .asleep | .woken | .pulling | .calling _ | .handling _ => True
  | .testing | .left => False

namespace WorkerPool

variable {size callers : Nat} {pool next : WorkerPool size callers} {action : Action size callers}

/-- Every request accepted before shutdown has been passed to the handler
exactly once, and none of them is in the queue. -/
def Drained (pool : WorkerPool size callers) : Prop :=
  ∀ request ∈ pool.accepted, pool.handled.count request = 1 ∧ request ∉ pool.mRequestQueue

/-- When the flag is set, some worker is past its test of it or no accepted
request is queued; and `~WorkerPool` destroys no accepted request with the queue. -/
def LeavesNone (pool : WorkerPool size callers) : Action size callers → Prop
  | .setShutdown _ _ => pool.mIsShutdown = false →
      (∃ w, (pool.worker w).InLoop) ∨ ∀ request ∈ pool.accepted, request ∉ pool.mRequestQueue
  | .destroyQueue _ _ => ∀ request ∈ pool.accepted, request ∉ pool.mRequestQueue
  | _ => True

/-- Accepted requests and those about to be signalled have been pushed. -/
structure Announced (pool : WorkerPool size callers) : Prop where
  signalling : ∀ c request, pool.caller c = .signalling request → request ∈ pool.pushed
  accepted : ∀ request ∈ pool.accepted, request ∈ pool.pushed

theorem Announced.step (announced : pool.Announced)
    (taken : (machine size callers).step pool action = some next) : next.Announced := by
  have kept : ∀ request ∈ pool.pushed, request ∈ next.pushed := by
    intro request member
    rcases queue_step taken with ⟨same, _⟩ | ⟨_, _, grown, _⟩ | ⟨_, _, _, _, _, same, _⟩ |
      ⟨_, same, _⟩
    · exact same ▸ member
    · exact grown ▸ List.mem_append_left _ member
    · exact same ▸ member
    · exact same ▸ member
  constructor
  · intro c request signalling
    have move := callerStep taken c
    rw [signalling] at move
    generalize before : pool.caller c = pc at move
    cases move with
    | stay => exact kept request (announced.signalling c request before)
    | push _ _ _ _ pushed => exact pushed
  · intro request member
    rcases accepted_step taken with same | ⟨_, c, signalled, signalling, grown⟩
    · exact kept request (announced.accepted request (same ▸ member))
    · rw [grown] at member
      rcases List.mem_append.mp member with earlier | now
      · exact kept request (announced.accepted request earlier)
      · rw [List.mem_singleton.mp now]
        exact kept signalled (announced.signalling c signalled signalling)

/-- What holds of the requests in every reachable state. -/
structure Bookkeeping (pool : WorkerPool size callers) : Prop where
  lone : pool.Lone
  finals : pool.FinalsTyped
  accounts : pool.Accounts
  announced : pool.Announced

theorem bookkeeping_initial : (initial size callers).Bookkeeping where
  lone := lone_initial
  finals _ _ final := nomatch final
  accounts := accounts_initial
  announced := ⟨fun _ _ => nofun, fun _ => nofun⟩

theorem Bookkeeping.step (books : pool.Bookkeeping)
    (taken : (machine size callers).step pool action = some next) : next.Bookkeeping where
  lone := books.lone.step taken
  finals := books.finals.step taken
  accounts := books.accounts.step books.lone books.finals taken
  announced := books.announced.step taken

/-- While somebody signals, the pool is alive and every pushed request is pulled
or queued. -/
theorem Bookkeeping.pulled_or_queued (books : pool.Bookkeeping) {c : Fin callers}
    {signalled request : Request} (signalling : pool.caller c = .signalling signalled)
    (pushed : request ∈ pool.pushed) : request ∈ pool.pulled ∨ request ∈ pool.mRequestQueue := by
  rcases books.accounts.order with whole | ⟨dead, _⟩
  · exact List.mem_append.mp (whole ▸ pushed)
  · rcases books.lone.others dead c with idle | inside
    · cases signalling.symm.trans idle
    · rw [signalling] at inside
      exact inside.elim

/-- The invariant of runs that leave none behind. -/
structure Draining (pool : WorkerPool size callers) : Prop where
  books : pool.Bookkeeping
  /-- After the flag is set some worker still has to empty the queue, or it
  holds no accepted request any more. -/
  seen : pool.mIsShutdown = true →
    (∃ w, (pool.worker w).InLoop) ∨ ∀ request ∈ pool.accepted, request ∉ pool.mRequestQueue
  /-- No accepted request is lost. -/
  kept : ∀ request ∈ pool.accepted, request ∈ pool.pulled ∨ request ∈ pool.mRequestQueue

/-- A worker in the loop stays there until it finds the queue empty. -/
theorem WorkerStep.inLoop {before after : WorkerPc} (move : WorkerStep pool before after)
    (inLoop : before.InLoop) : after.InLoop ∨ pool.mRequestQueue = [] := by
  cases move with
  | stay => exact Or.inl inLoop
  | leave | pass => exact inLoop.elim
  | pullNull empty => exact Or.inr empty
  | _ => exact Or.inl trivial

theorem Draining.step (draining : pool.Draining) (leaves : pool.LeavesNone action)
    (taken : (machine size callers).step pool action = some next) : next.Draining := by
  have books := draining.books
  refine ⟨books.step taken, fun shutdown => ?_, fun request member => ?_⟩
  · by_cases running : pool.mIsShutdown = false
    · -- The flag is being set now.
      rcases shutdown_step taken with same | ⟨c, final, rfl⟩
      · rw [same, running] at shutdown
        cases shutdown
      · obtain ⟨_, rfl⟩ := machine_step.mp taken
        exact leaves running
    · rw [Bool.not_eq_false] at running
      have accepted : next.accepted = pool.accepted := by
        rcases accepted_step taken with same | ⟨impossible, _⟩
        · exact same
        · exact absurd running (by rw [impossible]; exact nofun)
      -- An accepted request that is not queued does not enter the queue.
      have absent : (∀ request ∈ pool.accepted, request ∉ pool.mRequestQueue) →
          ∀ request ∈ next.accepted, request ∉ next.mRequestQueue := by
        intro none_queued request member queued
        rw [accepted] at member
        rcases queue_step taken with ⟨_, _, same⟩ | ⟨new, fresh, _, _, grown, _⟩ |
          ⟨_, _, _, _, queue, _, _, rest⟩ | ⟨_, _, _, empty⟩
        · exact none_queued request member (same ▸ queued)
        · rw [grown] at queued
          rcases List.mem_append.mp queued with old | now
          · exact none_queued request member old
          · rw [← List.mem_singleton.mp now] at fresh
            exact fresh (books.accounts.pushed_issued request
              (books.announced.accepted request member))
        · apply none_queued request member
          rw [queue]
          exact List.mem_cons_of_mem _ (rest ▸ queued)
        · rw [empty] at queued
          cases queued
      rcases draining.seen running with ⟨w, inLoop⟩ | none_queued
      · rcases (workerStep taken w).inLoop inLoop with stays | empty
        · exact Or.inl ⟨w, stays⟩
        · exact Or.inr (absent fun _ _ queued => by rw [empty] at queued; cases queued)
      · exact Or.inr (absent none_queued)
  · have old : request ∈ pool.pulled ∨ request ∈ pool.mRequestQueue := by
      rcases accepted_step taken with same | ⟨_, c, signalled, signalling, grown⟩
      · exact draining.kept request (same ▸ member)
      · rw [grown] at member
        rcases List.mem_append.mp member with earlier | now
        · exact draining.kept request earlier
        · rw [List.mem_singleton.mp now]
          exact books.pulled_or_queued signalling (books.announced.signalling c _ signalling)
    rcases queue_step taken with ⟨_, samePulled, same⟩ | ⟨_, _, _, samePulled, grown, _⟩ |
      ⟨_, _, _, _, queue, _, grown, rest⟩ | ⟨⟨c, i, rfl⟩, _, samePulled, _⟩
    · rwa [samePulled, same]
    · rw [samePulled, grown]
      exact old.imp_right (List.mem_append_left _)
    · rw [grown, rest]
      rw [queue] at old
      rcases old with pulled | queued
      · exact Or.inl (List.mem_append_left _ pulled)
      · rcases List.mem_cons.mp queued with rfl | later
        · exact Or.inl (List.mem_append_right _ (List.mem_singleton_self _))
        · exact Or.inr later
    · rw [samePulled]
      obtain ⟨_, rfl⟩ := machine_step.mp taken
      exact Or.inl (old.resolve_right (leaves request member))

/-- When all workers have left, a pool that has left none behind is drained. -/
theorem Draining.drained (draining : pool.Draining) (shutdown : pool.mIsShutdown = true)
    (left : ∀ w, pool.worker w = .left) : pool.Drained := by
  intro request accepted
  have unqueued : request ∉ pool.mRequestQueue := by
    rcases draining.seen shutdown with ⟨w, inLoop⟩ | none_queued
    · rw [left w] at inLoop
      exact inLoop.elim
    · exact none_queued request accepted
  refine ⟨?_, unqueued⟩
  have pulled := (draining.kept request accepted).resolve_right unqueued
  rcases draining.books.accounts.called request pulled with once | ⟨w, calling⟩
  · exact once
  · cases (left w).symm.trans calling

/-- An accepted request that no worker will pull any more: it has left the queue
unpulled, or the flag is set and every worker leaves at its next test of it. -/
structure Lost (request : Request) (pool : WorkerPool size callers) : Prop where
  books : pool.Bookkeeping
  accepted : request ∈ pool.accepted
  unpulled : request ∉ pool.pulled
  unreached : request ∉ pool.mRequestQueue ∨
    (pool.mIsShutdown = true ∧ ∀ w, pool.worker w = .testing ∨ pool.worker w = .left)

/-- What is lost stays lost. -/
theorem Lost.step {request : Request} (lost : pool.Lost request)
    (taken : (machine size callers).step pool action = some next) : next.Lost request where
  books := lost.books.step taken
  accepted := by
    rcases accepted_step taken with same | ⟨_, _, _, _, grown⟩
    · exact same ▸ lost.accepted
    · exact grown ▸ List.mem_append_left _ lost.accepted
  unpulled := by
    rcases queue_step taken with ⟨_, same, _⟩ | ⟨_, _, _, same, _⟩ |
      ⟨w, pulled, rest, pulling, queue, _, grown, _⟩ | ⟨_, _, same, _⟩
    · exact same ▸ lost.unpulled
    · exact same ▸ lost.unpulled
    · rcases lost.unreached with unqueued | ⟨_, ending⟩
      · rw [grown]
        intro member
        refine unqueued ?_
        rw [queue, List.mem_singleton.mp ((List.mem_append.mp member).resolve_left lost.unpulled)]
        exact List.mem_cons_self ..
      · rcases ending w with testing | left
        · cases pulling.symm.trans testing
        · cases pulling.symm.trans left
    · exact same ▸ lost.unpulled
  unreached := by
    rcases lost.unreached with unqueued | ⟨shutdown, ending⟩
    · left
      rcases queue_step taken with ⟨_, _, same⟩ | ⟨new, fresh, _, _, grown, _⟩ |
        ⟨_, _, _, _, queue, _, _, rest⟩ | ⟨_, _, _, empty⟩
      · exact same ▸ unqueued
      · rw [grown]
        intro member
        rw [← List.mem_singleton.mp ((List.mem_append.mp member).resolve_left unqueued)] at fresh
        exact fresh (lost.books.accounts.pushed_issued request
          (lost.books.announced.accepted request lost.accepted))
      · rw [queue] at unqueued
        rw [rest]
        exact fun member => unqueued (List.mem_cons_of_mem _ member)
      · rw [empty]
        exact List.not_mem_nil
    · refine Or.inr ⟨shutdown_stays taken shutdown, fun w => ?_⟩
      have move := workerStep taken w
      generalize next.worker w = after at move
      rcases ending w with testing | left
      · rw [testing] at move
        cases move with
        | stay => exact Or.inl rfl
        | leave => exact Or.inr rfl
        | pass running => exact absurd shutdown (by rw [running]; exact nofun)
      · rw [left] at move
        cases move with
        | stay => exact Or.inr rfl

/-- A pool that has lost a request is not drained. -/
theorem Lost.not_drained {request : Request} (lost : pool.Lost request) : ¬ pool.Drained := by
  intro drained
  have handled : request ∈ pool.handled := by
    rw [← List.one_le_count_iff, (drained request lost.accepted).1]
  rcases lost.books.accounts.handled request handled with pulled | final
  · exact lost.unpulled pulled
  · exact lost.books.accounts.pushed_type request
      (lost.books.announced.accepted request lost.accepted) final

/-- A step that leaves some behind loses a request. -/
theorem Bookkeeping.lost (books : pool.Bookkeeping)
    (taken : (machine size callers).step pool action = some next)
    (leaves : ¬ pool.LeavesNone action) : ∃ request, next.Lost request := by
  cases action with
  | setShutdown c final =>
      simp only [LeavesNone, Classical.not_imp, not_or, not_exists, not_forall, not_not] at leaves
      obtain ⟨_, unseen, request, accepted, queued⟩ := leaves
      have next_books := books.step taken
      obtain ⟨_, rfl⟩ := machine_step.mp taken
      refine ⟨request, next_books, accepted, (books.accounts.queued queued).2,
        Or.inr ⟨rfl, fun w => ?_⟩⟩
      have ending := unseen w
      change pool.worker w = _ ∨ pool.worker w = _
      cases pc : pool.worker w with
      | testing => exact Or.inl rfl
      | left => exact Or.inr rfl
      | _ => rw [pc] at ending; exact absurd trivial ending
  | destroyQueue c i =>
      simp only [LeavesNone, not_forall, not_not] at leaves
      obtain ⟨request, accepted, queued⟩ := leaves
      have next_books := books.step taken
      obtain ⟨_, rfl⟩ := machine_step.mp taken
      exact ⟨request, next_books, accepted, (books.accounts.queued queued).2,
        Or.inl List.not_mem_nil⟩
  | _ => exact absurd trivial leaves

/-- In a run that ends with the flag set and all workers gone, the requests
accepted before the flag was set have all been handled once, exactly when no
step of the run left any of them behind. -/
theorem drained_iff_leavesNone (actions : List (Action size callers))
    (ran : (machine size callers).run (initial size callers) actions = some pool)
    (shutdown : pool.mIsShutdown = true) (left : ∀ w, pool.worker w = .left) :
    pool.Drained ↔ (machine size callers).Steps LeavesNone (initial size callers) actions := by
  constructor
  · intro drained
    apply (machine size callers).steps_of_split
    intro earlier action later middle next whole before taken
    by_contra leaves
    have books : middle.Bookkeeping := by
      refine Machine.Reachable.invariant Bookkeeping (fun _ _ _ books taken => books.step taken)
        bookkeeping_initial ⟨earlier, before⟩
    obtain ⟨request, lost⟩ := books.lost taken leaves
    have onward : (machine size callers).Reachable next pool := by
      rw [whole, (machine size callers).run_append_eq_some] at ran
      obtain ⟨_, before', ran⟩ := ran
      cases before.symm.trans before'
      obtain ⟨_, taken', ran⟩ := (machine size callers).run_cons_eq_some.mp ran
      cases taken.symm.trans taken'
      exact ⟨later, ran⟩
    have still := onward.invariant (Lost request) (fun _ _ _ lost taken => lost.step taken) lost
    exact still.not_drained drained
  · intro leaves
    have draining : pool.Draining := by
      refine (machine size callers).run_invariant Draining
        (fun _ _ _ draining leaves taken => draining.step leaves taken) ?_ leaves ran
      exact ⟨bookkeeping_initial, nofun, nofun⟩
    exact draining.drained shutdown left

/-- A worker awakened by the signal empties the queue before it leaves. -/
theorem drained_iff_leavesNone_run :
    ∃ pool, (machine 1 1).run (initial 1 1)
        [.testWorker 0, .sleep 0, .process 0 sampleRequest, .signal 0 sampleRequest (some 0),
          .process 0 sampleShutdown, .testShutdown 0 (some sampleShutdown),
          .setShutdown 0 (some sampleShutdown), .resume 0, .pull 0 sampleRequest,
          .call 0 sampleRequest, .finish 0 sampleRequest, .pullNull 0, .testWorker 0] =
          some pool ∧ pool.accepted = [sampleRequest] ∧ pool.Drained := by
  refine ⟨_, rfl, rfl, (drained_iff_leavesNone
    [.testWorker 0, .sleep 0, .process 0 sampleRequest, .signal 0 sampleRequest (some 0),
      .process 0 sampleShutdown, .testShutdown 0 (some sampleShutdown),
      .setShutdown 0 (some sampleShutdown), .resume 0, .pull 0 sampleRequest,
      .call 0 sampleRequest, .finish 0 sampleRequest, .pullNull 0, .testWorker 0] rfl rfl
    fun w => ?_).mpr ?_⟩
  · obtain rfl : w = 0 := Subsingleton.elim w 0
    rfl
  · repeat rw [Machine.steps_cons _ rfl]
    exact ⟨trivial, trivial, trivial, trivial, trivial, trivial, fun _ => Or.inl ⟨0, trivial⟩,
      trivial, trivial, trivial, trivial, trivial, trivial, trivial⟩

/-- A worker that first tests the flag after it is set leaves the request that
was accepted before in the queue. -/
theorem not_drained_run :
    ∃ pool, (machine 1 1).run (initial 1 1)
        [.process 0 sampleRequest, .signal 0 sampleRequest none, .process 0 sampleShutdown,
          .testShutdown 0 (some sampleShutdown), .setShutdown 0 (some sampleShutdown),
          .broadcast 0 (some sampleShutdown), .testWorker 0] = some pool ∧
      pool.mIsShutdown = true ∧ (∀ w, pool.worker w = .left) ∧
      sampleRequest ∈ pool.accepted ∧ pool.handled = [] ∧
      pool.mRequestQueue = [sampleRequest] ∧ ¬ pool.Drained := by
  refine ⟨_, rfl, rfl, fun w => ?_, List.mem_singleton_self _, rfl, rfl, fun drained => ?_⟩
  · obtain rfl : w = 0 := Subsingleton.elim w 0
    rfl
  · exact (drained sampleRequest (List.mem_singleton_self _)).2 (List.mem_singleton_self _)

end WorkerPool

end MSrv
