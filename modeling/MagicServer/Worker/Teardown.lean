import MagicServer.Worker.Steps

/-!
# Joining and deleting the workers

The join loop of `shutdown()` waits for every worker but the first. What this
makes of the final request and of the deletions in `~WorkerPool` is read off an
invariant that follows the loop index of every caller inside `shutdown()`.
-/

namespace MSrv

/-- The places of `shutdown()` between its write of the flag and its last join. -/
def CallerPc.Joining : CallerPc → Prop
  | .broadcasting _ | .joining _ _ => True
  | .idle | .signalling _ | .testing _ | .setting _ | .finalizing _ | .handlingFinal _
  | .destructing | .deleting _ | .destroyed => False

namespace WorkerPool

variable {size callers : Nat} {pool next : WorkerPool size callers} {action : Action size callers}

/-- The final request is passed to the handler when every worker has left, and a
worker is deleted when its thread has ended and been joined. -/
def SafeTeardown (pool : WorkerPool size callers) : Action size callers → Prop
  | .callFinal _ _ => ∀ w, pool.worker w = .left
  | .deleteWorker _ i => pool.worker i = .left ∧ pool.joined i = true
  | _ => True

/-- The final request finds worker 0 gone, and worker 0 is not deleted. -/
def FirstGone (pool : WorkerPool size callers) : Action size callers → Prop
  | .callFinal _ _ => ∀ w : Fin size, w.val = 0 → pool.worker w = .left
  | .deleteWorker _ i => i.val ≠ 0
  | _ => True

/-- All workers but worker 0 have been joined. -/
def RestJoined (pool : WorkerPool size callers) : Prop :=
  ∀ w : Fin size, w.val ≠ 0 → pool.joined w = true

/-- What a caller inside `shutdown()` or `~WorkerPool` has joined so far. -/
def HasJoined (pool : WorkerPool size callers) : CallerPc → Prop
  | .joining _ i => 1 ≤ i ∧ ∀ w : Fin size, w.val ≠ 0 → w.val < i → pool.joined w = true
  | .finalizing _ | .handlingFinal _ | .deleting _ => pool.RestJoined
  | .idle | .signalling _ | .testing _ | .setting _ | .broadcasting _ | .destructing
  | .destroyed => True

/-- The invariant of the join loop. -/
structure JoinsRest (pool : WorkerPool size callers) : Prop where
  lone : pool.Lone
  joined_left : ∀ w, pool.joined w = true → pool.worker w = .left
  first : ∀ w : Fin size, w.val = 0 → pool.joined w = false
  callers : ∀ c, pool.HasJoined (pool.caller c)
  /-- Once the flag is set the other workers have been joined, or somebody is
  about to join them. -/
  shutdown : pool.mIsShutdown = true → pool.RestJoined ∨ ∃ c, (pool.caller c).Joining

theorem joinsRest_initial : (initial size callers).JoinsRest where
  lone := lone_initial
  joined_left _ := nofun
  first _ _ := rfl
  callers _ := trivial
  shutdown := nofun

/-- A joined worker stays joined, and a worker that becomes joined has left and
is at the loop index of its joiner. -/
theorem joined_step (taken : (machine size callers).step pool action = some next) :
    next.joined = pool.joined ∨ ∃ c final i, pool.caller c = .joining final i.val ∧
      pool.worker i = .left ∧ next.joined = Function.update pool.joined i true := by
  obtain ⟨enabled, rfl⟩ := machine_step.mp taken
  cases action with
  | process c request =>
      simp only [effect]
      split <;> exact Or.inl rfl
  | join c final i => exact Or.inr ⟨c, final, i, enabled.1, enabled.2, rfl⟩
  | _ => exact Or.inl rfl

theorem joined_stays (taken : (machine size callers).step pool action = some next) {w : Fin size}
    (joined : pool.joined w = true) : next.joined w = true := by
  rcases joined_step taken with same | ⟨_, _, i, _, _, same⟩
  · exact same ▸ joined
  · rw [same, Function.update_apply, joined, ite_self]

theorem RestJoined.step (rest : pool.RestJoined)
    (taken : (machine size callers).step pool action = some next) : next.RestJoined :=
  fun w later => joined_stays taken (rest w later)

/-- Whoever runs `~WorkerPool` and finds the flag set finds the join loop done. -/
theorem JoinsRest.rest_of_destructing (joins : pool.JoinsRest) {c : Fin callers}
    (inside : Destructing (pool.caller c)) (away : ¬ (pool.caller c).Joining)
    (shutdown : pool.mIsShutdown = true) : pool.RestJoined := by
  rcases joins.shutdown shutdown with rest | ⟨other, joining⟩
  · exact rest
  · rcases joins.lone.others (joins.lone.dead c inside) other with idle | inside'
    · rw [idle] at joining
      exact joining.elim
    · rw [joins.lone.unique c other inside inside'] at away
      exact absurd joining away

theorem JoinsRest.step (joins : pool.JoinsRest)
    (taken : (machine size callers).step pool action = some next) : next.JoinsRest where
  lone := joins.lone.step taken
  joined_left w joined := by
    rcases joined_step taken with same | ⟨_, _, i, _, left, same⟩
    · exact left_stays taken (joins.joined_left w (same ▸ joined))
    · by_cases moved : w = i
      · exact left_stays taken (moved ▸ left)
      · rw [same, Function.update_of_ne moved] at joined
        exact left_stays taken (joins.joined_left w joined)
  first w zero := by
    rcases joined_step taken with same | ⟨c, final, i, joining, _, same⟩
    · exact same ▸ joins.first w zero
    · have index := joins.callers c
      rw [joining] at index
      have different : w ≠ i := by
        rintro rfl
        have := index.1
        omega
      rw [same, Function.update_of_ne different]
      exact joins.first w zero
  callers c := by
    have before := joins.callers c
    have move := callerStep taken c
    have inside := fun destructing away => joins.rest_of_destructing (c := c) destructing away
    generalize pool.caller c = pc at before move inside
    generalize next.caller c = pc' at move
    cases move with
    | stay =>
        cases pc with
        | joining final i => exact ⟨before.1, fun w later below =>
            joined_stays taken (before.2 w later below)⟩
        | finalizing | handlingFinal | deleting => exact RestJoined.step before taken
        | _ => trivial
    | push | shutdown | signal | repeated | test | set | finishFinal | destruct | shutdownNull
    | destroy => trivial
    | repeatedNull shutdown | skip shutdown => exact (inside trivial id shutdown).step taken
    | broadcast =>
        refine ⟨le_rfl, fun w later below => ?_⟩
        omega
    | join final i left joined =>
        refine ⟨Nat.le_add_left .., fun w later below => ?_⟩
        by_cases now : w = i
        · exact now ▸ joined
        · have earlier : w.val < i.val :=
            lt_of_le_of_ne (Nat.lt_succ_iff.mp below) (Fin.val_ne_of_ne now)
          exact joined_stays taken (before.2 w later earlier)
    | joinEnd request i all | joinEndNull i all =>
        exact fun w later => joined_stays taken (before.2 w later (w.isLt.trans_le all))
    | callFinal | delete => exact RestJoined.step before taken
  shutdown shutdown := by
    by_cases running : pool.mIsShutdown = false
    · rcases shutdown_step taken with same | ⟨c, final, rfl⟩
      · exact absurd shutdown (by rw [same, running]; exact nofun)
      · obtain ⟨_, rfl⟩ := machine_step.mp taken
        refine Or.inr ⟨c, ?_⟩
        simp only [effect, goCaller, Function.update_self, CallerPc.Joining]
    · rw [Bool.not_eq_false] at running
      rcases joins.shutdown running with rest | ⟨c, joining⟩
      · exact Or.inl (rest.step taken)
      · have index := joins.callers c
        have move := callerStep taken c
        generalize pool.caller c = pc at index joining move
        generalize after : next.caller c = pc' at move
        cases move with
        | stay => exact Or.inr ⟨c, after ▸ joining⟩
        | broadcast | join => exact Or.inr ⟨c, by rw [after]; trivial⟩
        | joinEnd _ i all | joinEndNull i all =>
            exact Or.inl fun w later => joined_stays taken (index.2 w later (w.isLt.trans_le all))
        | _ => exact joining.elim

/-- A step of the teardown is safe exactly when worker 0 allows it. -/
theorem JoinsRest.safeTeardown_iff (joins : pool.JoinsRest)
    (taken : (machine size callers).step pool action = some next) :
    pool.SafeTeardown action ↔ pool.FirstGone action := by
  obtain ⟨enabled, _⟩ := machine_step.mp taken
  cases action with
  | callFinal c request =>
      constructor
      · exact fun left w _ => left w
      · intro first w
        by_cases zero : w.val = 0
        · exact first w zero
        · have rest := joins.callers c
          rw [show pool.caller c = _ from enabled] at rest
          exact joins.joined_left w (rest w zero)
  | deleteWorker c i =>
      constructor
      · rintro ⟨_, joined⟩ zero
        rw [joins.first i zero] at joined
        cases joined
      · intro later
        have rest := joins.callers c
        rw [show pool.caller c = _ from enabled] at rest
        exact ⟨joins.joined_left i (rest i later), rest i later⟩
  | _ => exact Iff.rfl

/-- In every run the final request comes after all workers and each deletion
after a join, exactly when the final request finds worker 0 gone and worker 0 is
never deleted; and once all workers have left none of them runs again. -/
theorem safeTeardown_iff_firstGone (size callers : Nat) :
    (∀ actions, (machine size callers).Steps SafeTeardown (initial size callers) actions ↔
      (machine size callers).Steps FirstGone (initial size callers) actions) ∧
    ∀ pool later : WorkerPool size callers, (∀ w, pool.worker w = .left) →
      (machine size callers).Reachable pool later → ∀ w, later.worker w = .left := by
  refine ⟨fun actions => ?_, fun pool later left onward => ?_⟩
  · have preserved : ∀ (condition : WorkerPool size callers → Action size callers → Prop)
        (pool : WorkerPool size callers) (action : Action size callers)
        (next : WorkerPool size callers), pool.JoinsRest → condition pool action →
          (machine size callers).step pool action = some next → next.JoinsRest :=
      fun _ _ _ _ joins _ taken => joins.step taken
    constructor
    · exact (machine size callers).steps_mono (preserved SafeTeardown)
        (fun _ _ _ joins safe taken => (joins.safeTeardown_iff taken).mp safe) joinsRest_initial
    · exact (machine size callers).steps_mono (preserved FirstGone)
        (fun _ _ _ joins gone taken => (joins.safeTeardown_iff taken).mpr gone) joinsRest_initial
  · exact onward.invariant (fun pool => ∀ w, pool.worker w = .left)
      (fun _ _ _ left taken w => left_stays taken (left w)) left

/-- A worker that leaves before the final request is passed to the handler makes
the teardown up to there safe, and never runs again. -/
theorem safeTeardown_iff_firstGone_run :
    ∃ pool, (machine 1 1).run (initial 1 1)
        [.process 0 sampleShutdown, .testShutdown 0 (some sampleShutdown),
          .setShutdown 0 (some sampleShutdown), .broadcast 0 (some sampleShutdown),
          .testWorker 0, .joinEnd 0 (some sampleShutdown) 1, .callFinal 0 sampleShutdown] =
          some pool ∧
      (machine 1 1).Steps SafeTeardown (initial 1 1)
        [.process 0 sampleShutdown, .testShutdown 0 (some sampleShutdown),
          .setShutdown 0 (some sampleShutdown), .broadcast 0 (some sampleShutdown),
          .testWorker 0, .joinEnd 0 (some sampleShutdown) 1, .callFinal 0 sampleShutdown] ∧
      ∀ later, (machine 1 1).Reachable pool later → ∀ w, later.worker w = .left := by
  refine ⟨_, rfl, ((safeTeardown_iff_firstGone 1 1).1 _).mpr ?_,
    fun later => (safeTeardown_iff_firstGone 1 1).2 _ later fun w => ?_⟩
  · repeat rw [Machine.steps_cons _ rfl]
    refine ⟨trivial, trivial, trivial, trivial, trivial, trivial, fun w _ => ?_, trivial⟩
    obtain rfl : w = 0 := Subsingleton.elim w 0
    rfl
  · obtain rfl : w = 0 := Subsingleton.elim w 0
    rfl

/-- With a single worker nobody is joined: the final request is passed to the
handler while the worker is inside it, and `~WorkerPool` deletes the worker. -/
theorem unsafeTeardown_run :
    ∃ inHandler atDelete, (machine 1 1).run (initial 1 1)
        [.testWorker 0, .sleep 0, .process 0 sampleRequest, .signal 0 sampleRequest (some 0),
          .resume 0, .pull 0 sampleRequest, .call 0 sampleRequest, .process 0 sampleShutdown,
          .testShutdown 0 (some sampleShutdown), .setShutdown 0 (some sampleShutdown),
          .broadcast 0 (some sampleShutdown), .joinEnd 0 (some sampleShutdown) 1] =
          some inHandler ∧
      inHandler.caller 0 = .finalizing sampleShutdown ∧
      inHandler.worker 0 = .handling sampleRequest ∧
      ¬ inHandler.SafeTeardown (.callFinal 0 sampleShutdown) ∧
      (machine 1 1).run inHandler [.callFinal 0 sampleShutdown, .finishFinal 0 sampleShutdown,
        .destruct 0, .testDestruct 0] = some atDelete ∧
      atDelete.caller 0 = .deleting 0 ∧ atDelete.worker 0 = .handling sampleRequest ∧
      ¬ atDelete.SafeTeardown (.deleteWorker 0 0) := by
  refine ⟨_, _, rfl, rfl, rfl, fun safe => ?_, rfl, rfl, rfl, fun safe => ?_⟩
  · cases safe 0
  · cases safe.1

end WorkerPool

end MSrv
