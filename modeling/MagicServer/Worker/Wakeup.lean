import MagicServer.Worker.Steps

/-!
# Signals that find no sleeper

The queue and the condition variable have different locks, so a worker that has
found the queue empty and is not yet asleep hears neither a `signal()` nor a
`broadcast()`. Of the signals this module says exactly which ones leave a
request stranded, and of the broadcast exactly when a worker sleeps through it.
-/

namespace MSrv

/-- A worker that pulls from the queue before it sleeps again. -/
def WorkerPc.Draining : WorkerPc → Prop
  | .woken | .pulling | .calling _ | .handling _ => True
  | .testing | .waiting | .asleep | .left => False

namespace WorkerPool

variable {size callers : Nat}

/-- Some thread is between its push and its signal, or some worker is on its
way to pull. -/
def Attended (pool : WorkerPool size callers) : Prop :=
  (∃ c request, pool.caller c = .signalling request) ∨ ∃ w, (pool.worker w).Draining

/-- Before shutdown a request is in the queue while every worker sleeps and no
caller is between its push and its signal. -/
def Stranded (pool : WorkerPool size callers) : Prop :=
  pool.mIsShutdown = false ∧ pool.mRequestQueue ≠ [] ∧
    (∀ w, pool.worker w = .asleep) ∧ ∀ c request, pool.caller c ≠ .signalling request

/-- A signal before shutdown, while requests are queued, is heard when another
caller has still to signal, or a worker is asleep or on its way to pull. -/
def SignalHeard (pool : WorkerPool size callers) : Action size callers → Prop
  | .signal c _ _ =>
      pool.mIsShutdown = false → pool.mRequestQueue ≠ [] →
        (∃ other request, other ≠ c ∧ pool.caller other = .signalling request) ∨
          ∃ w, pool.worker w = .asleep ∨ (pool.worker w).Draining
  | _ => True

/-- The invariant behind the wake-ups: before shutdown, queued requests are attended. -/
def QueueAttended (pool : WorkerPool size callers) : Prop :=
  pool.mIsShutdown = false → pool.mRequestQueue ≠ [] → pool.Attended

/-- A caller that is not between push and signal does not attend the queue, so
its move leaves the queue attended. -/
theorem Attended.moveCaller {pool next : WorkerPool size callers} (attended : pool.Attended)
    {c : Fin callers} {before after : CallerPc} (here : pool.caller c = before)
    (away : ∀ request, before ≠ .signalling request)
    (moved : next.caller = pool.goCaller c after) (same : next.worker = pool.worker) :
    next.Attended := by
  subst here
  rcases attended with signalling | draining
  · left
    rw [moved]
    exact Threads.exists_update (p := fun _ pc => ∃ request, pc = CallerPc.signalling request)
      signalling fun ⟨request, signalling⟩ => absurd signalling (away request)
  · right
    rw [same]
    exact draining

/-- A worker that keeps draining, or was not draining, leaves the queue attended. -/
theorem Attended.moveWorker {pool next : WorkerPool size callers} (attended : pool.Attended)
    {w : Fin size} {before after : WorkerPc} (here : pool.worker w = before)
    (moved : next.worker = pool.goWorker w after) (same : next.caller = pool.caller)
    (kept : before.Draining → after.Draining) :
    next.Attended := by
  subst here
  rcases attended with signalling | draining
  · left
    rw [same]
    exact signalling
  · right
    rw [moved]
    exact Threads.exists_update (p := fun _ pc => WorkerPc.Draining pc) draining kept

/-- Every step whose signal is heard keeps the queued requests attended. -/
theorem QueueAttended.step {pool next : WorkerPool size callers} {action : Action size callers}
    (attended : pool.QueueAttended) (heard : pool.SignalHeard action)
    (taken : (machine size callers).step pool action = some next) : next.QueueAttended := by
  obtain ⟨enabled, rfl⟩ := machine_step.mp taken
  intro running queued
  cases action with
  | process c request =>
      obtain ⟨_, idle, _⟩ := enabled
      by_cases final : request.getType = .shutdown
      · rw [effect_process_shutdown pool c final] at running queued ⊢
        exact (attended running queued).moveCaller idle (fun _ => nofun) rfl rfl
      · refine Or.inl ⟨c, request, ?_⟩
        rw [effect_process_push pool c final]
        exact Function.update_self ..
  | signal c request target =>
      obtain ⟨_, target_asleep⟩ := enabled
      rcases heard running queued with ⟨other, request', different, here⟩ | ⟨w, listening⟩
      · exact Or.inl ⟨other, request', (Function.update_of_ne different ..).trans here⟩
      · right
        cases target with
        | some target =>
            refine ⟨target, ?_⟩
            change (Function.update pool.worker target .woken target).Draining
            rw [Function.update_self]
            trivial
        | none => exact ⟨w, listening.resolve_left (target_asleep w)⟩
  | broadcast c final =>
      rcases attended running queued with ⟨other, request, signalling⟩ | ⟨w, draining⟩
      · refine Or.inl ⟨other, request, (Function.update_of_ne ?_ ..).trans signalling⟩
        rintro rfl
        cases enabled.symm.trans signalling
      · refine Or.inr ⟨w, ?_⟩
        rw [effect_broadcast_worker]
        split
        · trivial
        · exact draining
  | setShutdown c final => cases running
  | destroyQueue c i => exact absurd rfl queued
  | destruct c =>
      exact (attended running queued).moveCaller (enabled.2 c) (fun _ => nofun) rfl rfl
  | join c final i | joinEnd c final i =>
      exact (attended running queued).moveCaller enabled.1 (fun _ => nofun) rfl rfl
  | testShutdown c final | callFinal c request | finishFinal c request | testDestruct c
  | deleteWorker c i =>
      exact (attended running queued).moveCaller enabled (fun _ => nofun) rfl rfl
  | testWorker w | sleep w =>
      exact (attended running queued).moveWorker enabled rfl rfl False.elim
  | wake w | resume w | call w request | finish w request =>
      exact (attended running queued).moveWorker enabled rfl rfl fun _ => trivial
  | pull w request =>
      refine (attended running fun empty => ?_).moveWorker enabled.1 rfl rfl fun _ => trivial
      exact absurd enabled.2 (by rw [empty]; exact nofun)
  | pullNull w => exact absurd enabled.2 queued

/-- An attended queue is not stranded. -/
theorem QueueAttended.not_stranded {pool : WorkerPool size callers}
    (attended : pool.QueueAttended) : ¬ pool.Stranded := by
  rintro ⟨running, queued, asleep, silent⟩
  rcases attended running queued with ⟨c, request, signalling⟩ | ⟨w, draining⟩
  · exact silent c request signalling
  · rw [asleep w] at draining
    exact draining

/-- Workers that have not left `wait()` or are about to test the flag can all go
to sleep while nobody else moves. -/
theorem sleepAll (workers : List (Fin size)) (pool : WorkerPool size callers)
    (running : pool.mIsShutdown = false)
    (idle : ∀ w, pool.worker w = .testing ∨ pool.worker w = .waiting ∨ pool.worker w = .asleep) :
    ∃ final, (machine size callers).Reachable pool final ∧ final.mIsShutdown = false ∧
      final.mRequestQueue = pool.mRequestQueue ∧ final.caller = pool.caller ∧
      (∀ w, final.worker w = .asleep ∨ final.worker w = pool.worker w) ∧
      ∀ w ∈ workers, final.worker w = .asleep := by
  induction workers generalizing pool with
  | nil => exact ⟨pool, .refl pool, running, rfl, rfl, fun _ => Or.inr rfl, by simp⟩
  | cons w rest ih =>
      -- Worker `w` goes to sleep first, in at most two steps.
      have here : ∃ middle, (machine size callers).Reachable pool middle ∧
          middle.mIsShutdown = false ∧ middle.mRequestQueue = pool.mRequestQueue ∧
          middle.caller = pool.caller ∧
          middle.worker = Function.update pool.worker w .asleep := by
        rcases idle w with testing | waiting | asleep
        · have tested : (machine size callers).step pool (.testWorker w) = some
              { pool with worker := Function.update pool.worker w .waiting } :=
            machine_step.mpr ⟨testing, by simp only [effect, goWorker, running]; rfl⟩
          have slept : (machine size callers).step
              { pool with worker := Function.update pool.worker w .waiting } (.sleep w) = some _ :=
            machine_step.mpr ⟨Function.update_self .., rfl⟩
          refine ⟨_, (Machine.Reachable.refl pool).step tested |>.step slept, running, rfl, rfl, ?_⟩
          simp only [effect, goWorker, Function.update_idem]
        · have slept : (machine size callers).step pool (.sleep w) = some _ :=
            machine_step.mpr ⟨waiting, rfl⟩
          exact ⟨_, (Machine.Reachable.refl pool).step slept, running, rfl, rfl, rfl⟩
        · exact ⟨pool, .refl pool, running, rfl, rfl, by rw [← asleep, Function.update_eq_self]⟩
      obtain ⟨middle, reached, running', queue, caller, worker⟩ := here
      have idle' : ∀ v, middle.worker v = .testing ∨ middle.worker v = .waiting ∨
          middle.worker v = .asleep := by
        rw [worker]
        exact Threads.forall_update (p := fun _ pc => pc = WorkerPc.testing ∨ pc = .waiting ∨
          pc = .asleep) idle (Or.inr (Or.inr rfl))
      obtain ⟨final, onward, running'', queue', caller', workers', asleep⟩ :=
        ih middle running' idle'
      have middleAsleep : middle.worker w = .asleep := by rw [worker, Function.update_self]
      refine ⟨final, reached.trans onward, running'', queue'.trans queue, caller'.trans caller,
        fun v => ?_, fun v member => ?_⟩
      · rcases workers' v with asleep | same
        · exact Or.inl asleep
        · by_cases moved : v = w
          · left
            rw [same, moved, middleAsleep]
          · right
            rw [same, worker, Function.update_of_ne moved]
      · rcases List.mem_cons.mp member with rfl | later
        · rcases workers' v with asleep | same
          · exact asleep
          · exact same.trans middleAsleep
        · exact asleep v later

/-- After a signal that is not heard, the pool can go on into a stranded state. -/
theorem stranded_of_unheard {pool next : WorkerPool size callers} {action : Action size callers}
    (reached : (machine size callers).Reachable (initial size callers) pool)
    (taken : (machine size callers).step pool action = some next)
    (unheard : ¬ pool.SignalHeard action) :
    ∃ final, (machine size callers).Reachable next final ∧ final.Stranded := by
  cases action with
  | signal c request target =>
      simp only [SignalHeard, Classical.not_imp, not_or, not_exists, not_and] at unheard
      obtain ⟨running, queued, silent, deaf⟩ := unheard
      obtain ⟨⟨signalling, target_asleep⟩, rfl⟩ := machine_step.mp taken
      obtain rfl : target = none := by
        cases target with
        | none => rfl
        | some w => exact absurd target_asleep (deaf w).1
      have idle : ∀ w, pool.worker w = .testing ∨ pool.worker w = .waiting ∨
          pool.worker w = .asleep := by
        intro w
        have awake := deaf w
        cases pc : pool.worker w with
        | testing => exact Or.inl rfl
        | waiting => exact Or.inr (Or.inl rfl)
        | asleep => exact Or.inr (Or.inr rfl)
        | left => exact absurd (left_shutdown reached w pc) (by rw [running]; exact nofun)
        | _ => rw [pc] at awake; exact absurd trivial awake.2
      obtain ⟨final, onward, running', queue, caller, _, asleep⟩ :=
        sleepAll (List.finRange size) (pool.effect (.signal c request none)) running idle
      refine ⟨final, onward, running', ?_, fun w => asleep w (List.mem_finRange w), ?_⟩
      · rw [queue]
        exact queued
      · intro other request'
        rw [caller]
        change Function.update pool.caller c .idle other ≠ .signalling request'
        by_cases same : other = c
        · rw [same, Function.update_self]
          exact nofun
        · rw [Function.update_of_ne same]
          exact silent other request' same
  | _ => exact absurd trivial unheard

/-- Along every run whose signals before shutdown are heard no request is ever
stranded, and after any other signal the pool can go on into a stranded state. -/
theorem stranded_by_unheard_signals (size callers : Nat) :
    (∀ actions pool, (machine size callers).run (initial size callers) actions = some pool →
      (machine size callers).Steps SignalHeard (initial size callers) actions →
        ¬ pool.Stranded) ∧
    ∀ pool action next, (machine size callers).Reachable (initial size callers) pool →
      (machine size callers).step pool action = some next → ¬ pool.SignalHeard action →
        ∃ final, (machine size callers).Reachable next final ∧ final.Stranded := by
  constructor
  · intro actions pool ran heard
    refine QueueAttended.not_stranded
      ((machine size callers).run_invariant QueueAttended ?_ ?_ heard ran)
    · intro state action next attended heard taken
      exact attended.step heard taken
    · intro _ queued
      exact absurd rfl queued
  · intro pool action next reached taken unheard
    exact stranded_of_unheard reached taken unheard

/-- A signal that finds the only worker asleep is heard, and one that falls
between its test of the flag and its sleep is not. -/
theorem stranded_by_unheard_signals_runs :
    (∃ pool, (machine 1 1).run (initial 1 1)
        [.testWorker 0, .sleep 0, .process 0 sampleRequest,
          .signal 0 sampleRequest (some 0)] = some pool ∧
      pool.mRequestQueue = [sampleRequest] ∧ ¬ pool.Stranded) ∧
    ∃ pool next, (machine 1 1).run (initial 1 1)
        [.testWorker 0, .process 0 sampleRequest] = some pool ∧
      (machine 1 1).step pool (.signal 0 sampleRequest none) = some next ∧
      ∃ final, (machine 1 1).Reachable next final ∧ final.Stranded := by
  constructor
  · refine ⟨_, rfl, rfl, (stranded_by_unheard_signals 1 1).1
      [.testWorker 0, .sleep 0, .process 0 sampleRequest, .signal 0 sampleRequest (some 0)]
      _ rfl ?_⟩
    rw [Machine.steps_cons _ rfl, Machine.steps_cons _ rfl, Machine.steps_cons _ rfl,
      Machine.steps_cons _ rfl]
    exact ⟨trivial, trivial, trivial, fun _ _ => Or.inr ⟨0, Or.inl rfl⟩, trivial⟩
  · refine ⟨_, _, rfl, rfl, (stranded_by_unheard_signals 1 1).2 _
      (.signal 0 sampleRequest none) _
      ⟨[.testWorker 0, .process 0 sampleRequest], rfl⟩ rfl ?_⟩
    intro heard
    rcases heard rfl nofun with ⟨other, request, different, _⟩ | ⟨w, listening⟩
    · exact different (Subsingleton.elim other 0)
    · obtain rfl : w = 0 := Subsingleton.elim w 0
      exact listening.elim nofun id

/-- The request pushed and signalled between the worker's test of the flag and
its sleep stays in the queue while the worker sleeps. -/
theorem stranded_run :
    ∃ pool, (machine 1 1).run (initial 1 1)
        [.testWorker 0, .process 0 sampleRequest, .signal 0 sampleRequest none, .sleep 0] =
          some pool ∧ pool.Stranded := by
  refine ⟨_, rfl, rfl, nofun, fun w => ?_, fun c request => ?_⟩
  · obtain rfl : w = 0 := Subsingleton.elim w 0
    rfl
  · obtain rfl : c = 0 := Subsingleton.elim c 0
    exact nofun

/-! ## The broadcast of the shutdown -/

/-- A caller broadcasts after it has set `mIsShutdown`. -/
theorem broadcasting_shutdown {pool : WorkerPool size callers}
    (reached : (machine size callers).Reachable (initial size callers) pool) (c : Fin callers)
    (final : Option Request) (broadcasting : pool.caller c = .broadcasting final) :
    pool.mIsShutdown = true := by
  refine reached.invariant (fun pool => ∀ c final,
    pool.caller c = .broadcasting final → pool.mIsShutdown = true) ?_
    (fun c final impossible => by cases impossible) c final broadcasting
  intro pool action next ih taken c final broadcasting
  have move := callerStep taken c
  rw [broadcasting] at move
  generalize before : pool.caller c = pc at move
  cases move with
  | stay => exact shutdown_stays taken (ih c final before)
  | set final shutdown => exact shutdown

/-- A broadcast has roused the pool when no worker can sleep any more. -/
def Roused (pool : WorkerPool size callers) : Prop :=
  pool.mIsShutdown = true ∧ ∀ w, pool.worker w ≠ .waiting ∧ pool.worker w ≠ .asleep

/-- A roused pool stays roused: a worker that tests the flag leaves. -/
theorem Roused.step {pool next : WorkerPool size callers} {action : Action size callers}
    (roused : pool.Roused) (taken : (machine size callers).step pool action = some next) :
    next.Roused := by
  refine ⟨shutdown_stays taken roused.1, fun w => ?_⟩
  have move := workerStep taken w
  have awake := roused.2 w
  generalize pool.worker w = before at move awake
  generalize next.worker w = after at move
  cases move with
  | stay => exact awake
  | pass running => exact absurd roused.1 (by rw [running]; exact nofun)
  | sleep => exact absurd rfl awake.1
  | _ => exact ⟨nofun, nofun⟩

/-- After the broadcast of `shutdown()` no reachable state has a worker asleep,
exactly when no worker was between its test of `mIsShutdown` and its sleep. -/
theorem asleep_after_broadcast_iff {pool next : WorkerPool size callers} {c : Fin callers}
    {final : Option Request}
    (reached : (machine size callers).Reachable (initial size callers) pool)
    (taken : (machine size callers).step pool (.broadcast c final) = some next) :
    (∀ later, (machine size callers).Reachable next later → ∀ w, later.worker w ≠ .asleep) ↔
      ∀ w, pool.worker w ≠ .waiting := by
  obtain ⟨broadcasting, rfl⟩ := machine_step.mp taken
  constructor
  · intro never w waiting
    have waits : (pool.effect (.broadcast c final)).worker w = .waiting := by
      rw [effect_broadcast_worker, waiting, if_neg (by decide)]
    have slept : (machine size callers).step _ (.sleep w) = some _ :=
      machine_step.mpr ⟨waits, rfl⟩
    exact never _ ((Machine.Reachable.refl _).step slept) w (Function.update_self ..)
  · intro none_waiting later onward w
    have roused : (pool.effect (.broadcast c final)).Roused := by
      have shutdown : pool.mIsShutdown = true :=
        broadcasting_shutdown reached c final broadcasting
      refine ⟨shutdown, fun w => ?_⟩
      rw [effect_broadcast_worker]
      split_ifs with asleep
      · exact ⟨nofun, nofun⟩
      · exact ⟨none_waiting w, asleep⟩
    exact (onward.invariant Roused (fun _ _ _ roused taken => roused.step taken) roused).2 w |>.2

/-- A worker asleep before the broadcast is awake in every later state. -/
theorem asleep_after_broadcast_iff_run :
    ∃ pool next, (machine 1 1).run (initial 1 1)
        [.testWorker 0, .sleep 0, .process 0 sampleShutdown,
          .testShutdown 0 (some sampleShutdown), .setShutdown 0 (some sampleShutdown)] =
          some pool ∧
      (machine 1 1).step pool (.broadcast 0 (some sampleShutdown)) = some next ∧
      ∀ later, (machine 1 1).Reachable next later → ∀ w, later.worker w ≠ .asleep := by
  refine ⟨_, _, rfl, rfl, (asleep_after_broadcast_iff
    ⟨[.testWorker 0, .sleep 0, .process 0 sampleShutdown,
      .testShutdown 0 (some sampleShutdown), .setShutdown 0 (some sampleShutdown)], rfl⟩
    (show (machine 1 1).step _ (.broadcast 0 (some sampleShutdown)) = some _ from rfl)).mpr
    fun w => ?_⟩
  obtain rfl : w = 0 := Subsingleton.elim w 0
  exact nofun

/-- The broadcast that falls between the worker's test of the flag and its sleep
is missed: the worker sleeps while `shutdown()` is in its join loop. -/
theorem asleep_after_broadcast_run :
    ∃ pool, (machine 2 1).run (initial 2 1)
        [.testWorker 1, .process 0 sampleShutdown, .testShutdown 0 (some sampleShutdown),
          .setShutdown 0 (some sampleShutdown), .broadcast 0 (some sampleShutdown),
          .sleep 1] = some pool ∧
      pool.mIsShutdown = true ∧ pool.caller 0 = .joining (some sampleShutdown) 1 ∧
      pool.worker 1 = .asleep :=
  ⟨_, rfl, rfl, rfl, rfl⟩

end WorkerPool

end MSrv
