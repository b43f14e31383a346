import MagicServer.Worker.Teardown

/-!
# Creating and joining the worker threads

The life of a pool from the first pass through the loop of its constructor, with
whatever `pthread_create` returns for each worker. A worker runs as soon as its
thread has been created, the functions of the pool are called when the
constructor has returned. `pthread_create` returns a positive number when it
fails, which `Thread::start` does not take for an error.
-/

namespace MSrv

/-- A `Thread` object. -/
structure Thread where
  mHasJoined : Bool
  /-- `pthread_create` has made a thread. -/
  created : Bool

namespace Thread

/-- Creates a thread object, without a thread. -/
def construct : Thread where
  mHasJoined := true
  created := false

/-- Starts the execution of the thread, when `pthread_create` returns `result`. -/
def start (thread : Thread) (result : Int) : MSrvResult × Thread :=
  let tried := { thread with created := decide (result = 0) }
  if result < 0 then (MSRVERR_THREAD_CREATE_FAILED, tried)
  else (0, { tried with mHasJoined := false })

/-- Waits for the thread to exit: what `join()` does before `pthread_join`. -/
def join (thread : Thread) : Thread := { thread with mHasJoined := true }

/-- A result that `pthread_create` can have makes `start()` return 0. -/
theorem start_eq {thread : Thread} {result : Int} (outcome : 0 ≤ result) :
    thread.start result = (0, ⟨false, decide (result = 0)⟩) := if_neg (not_lt.mpr outcome)

end Thread

namespace WorkerPool.Action

variable {size callers : Nat}

/-- The worker whose thread takes the step. -/
def worker? : Action size callers → Option (Fin size)
  | .testWorker w | .sleep w | .wake w | .resume w | .pull w _ | .pullNull w | .call w _
  | .finish w _ => some w
  | .process _ _ | .signal _ _ _ | .testShutdown _ _ | .setShutdown _ _ | .broadcast _ _
  | .join _ _ _ | .joinEnd _ _ _ | .callFinal _ _ | .finishFinal _ _ | .destruct _
  | .testDestruct _ | .deleteWorker _ _ | .destroyQueue _ _ => none

/-- The worker at a loop index, if there is one. -/
def workerAt (i : Nat) : Option (Fin size) :=
  if inside : i < size then some ⟨i, inside⟩ else none

/-- The worker that the join loop has come to with the step. -/
def joins? : Action size callers → Option (Fin size)
  | .broadcast _ _ => workerAt 1
  | .join _ _ i => workerAt (i + 1)
  | _ => none

theorem eq_of_mem_workerAt {i : Nat} {w : Fin size} (found : w ∈ workerAt i) : w.val = i := by
  obtain ⟨_, same⟩ := Option.dite_none_right_eq_some.mp found
  cases same
  rfl

end WorkerPool.Action

/-- A pool with the threads of its workers. -/
structure PoolLife (size callers : Nat) where
  pool : WorkerPool size callers
  /-- The loop index of the constructor. -/
  started : Nat
  thread : Fin size → Thread
  /-- What `start()` has returned for each worker. -/
  startResult : Fin size → Option MSrvResult
  /-- The workers whose `join()` has been called, the first call first. -/
  joinCalls : List (Fin size)

namespace PoolLife

variable {size callers : Nat}

/-- The constructor begins its loop. -/
def initial (size callers : Nat) : PoolLife size callers where
  pool := .initial size callers
  started := 0
  thread _ := .construct
  startResult _ := none
  joinCalls := []

inductive Action (size callers : Nat) where
  /-- The constructor starts a worker. -/
  | start (w : Fin size)
  | pool (action : WorkerPool.Action size callers)
  /-- `pthread_join` returns for a worker that has no thread. -/
  | joinNone (c : Fin callers) (final : Option Request) (i : Fin size)

/-- Whose steps can be taken: those of a worker that has a thread, and those of
the callers when the constructor has returned. -/
def Takes (life : PoolLife size callers) (action : WorkerPool.Action size callers) : Prop :=
  match action.worker? with
  | some w => (life.thread w).created = true
  | none => size ≤ life.started

instance (life : PoolLife size callers) : DecidablePred life.Takes := by
  intro action
  unfold Takes
  split
  · exact instDecidableEqBool _ _
  · exact Nat.decLe _ _

def Enabled (life : PoolLife size callers) : Action size callers → Prop
  | .start w => w.val = life.started
  | .pool action => life.Takes action ∧ life.pool.Enabled action
  | .joinNone c final i =>
      life.Takes (.join c final i) ∧ life.pool.caller c = .joining final i ∧
        (life.thread i).created = false

instance (life : PoolLife size callers) : DecidablePred life.Enabled
  | .start _ => inferInstanceAs (Decidable (_ = _))
  | .pool _ => inferInstanceAs (Decidable (_ ∧ _))
  | .joinNone _ _ _ => inferInstanceAs (Decidable (_ ∧ _))

/-- The join loop calls `join()`, if it has come to a worker. -/
def call (life : PoolLife size callers) : Option (Fin size) → PoolLife size callers
  | none => life
  | some w =>
      { life with
        thread := Function.update life.thread w (life.thread w).join
        joinCalls := life.joinCalls ++ [w] }

/-- What a step does, when `pthread_create` returns `creates w` for worker `w`. -/
def effect (creates : Fin size → Int) (life : PoolLife size callers) :
    Action size callers → PoolLife size callers
  | .start w =>
      let (result, thread) := (life.thread w).start (creates w)
      { life with
        started := life.started + 1
        thread := Function.update life.thread w thread
        startResult := Function.update life.startResult w (some result) }
  | .pool action => call { life with pool := life.pool.effect action } action.joins?
  | .joinNone c final i =>
      call { life with pool := life.pool.effect (.join c final i) }
        (WorkerPool.Action.join c final i).joins?

/-- Every interleaving of the constructor, the workers and the callers is a run. -/
def machine (creates : Fin size → Int) : Machine (PoolLife size callers) (Action size callers) :=
  Machine.guarded Enabled (effect creates)

/-- `start()` tells whether a thread has been created, and `join()` is called for
created threads only, once for each at most. -/
structure Correct (life : PoolLife size callers) : Prop where
  starts : ∀ w result, life.startResult w = some result →
    (result = 0 ↔ (life.thread w).created = true)
  joins : ∀ w ∈ life.joinCalls, (life.thread w).created = true
  once : life.joinCalls.Nodup

/-- No thread reads `mIsShutdown` in `shutdown()` between the read and the write
of another one. -/
def Serial (life : PoolLife size callers) : Action size callers → Prop
  | .pool (.testShutdown _ _) => ∀ c final, life.pool.caller c ≠ .setting final
  | _ => True

variable {creates : Fin size → Int} {life next : PoolLife size callers}
  {action : Action size callers}

theorem machine_step : (machine creates).step life action = some next ↔
    life.Enabled action ∧ life.effect creates action = next :=
  Machine.guarded_step

/-! ## What has been created -/

/-- What the constructor has done so far. -/
structure Started (creates : Fin size → Int) (life : PoolLife size callers) : Prop where
  startResult : ∀ w, life.startResult w = if w.val < life.started then some 0 else none
  created : ∀ w, (life.thread w).created = decide (w.val < life.started ∧ creates w = 0)
  joins : ∀ w ∈ life.joinCalls, w.val < life.started

theorem started_initial : Started creates (initial size callers) where
  startResult _ := rfl
  created w := by
    symm
    exact decide_eq_false fun begun => Nat.not_lt_zero _ begun.1
  joins _ member := absurd member List.not_mem_nil

/-- A call of `join()` creates no thread. -/
theorem call_created (life : PoolLife size callers) (joined : Option (Fin size)) (w : Fin size) :
    ((life.call joined).thread w).created = (life.thread w).created := by
  cases joined with
  | none => rfl
  | some i =>
      change (Function.update life.thread i (life.thread i).join w).created = _
      by_cases same : w = i
      · subst same
        rw [Function.update_self]
        rfl
      · rw [Function.update_of_ne same]

/-- It records the worker, and changes nothing else that the constructor has done. -/
theorem call_started (life : PoolLife size callers) (joined : Option (Fin size)) :
    (life.call joined).started = life.started ∧
      (life.call joined).startResult = life.startResult ∧
      (life.call joined).pool = life.pool ∧
      (life.call joined).joinCalls = life.joinCalls ++ joined.toList := by
  cases joined with
  | none => exact ⟨rfl, rfl, rfl, (List.append_nil _).symm⟩
  | some w => exact ⟨rfl, rfl, rfl, rfl⟩

/-- A step of the pool, when all that it joins has been started. -/
theorem Started.call (begun : Started creates life) (pool : WorkerPool size callers)
    {joined : Option (Fin size)} (finished : joined ≠ none → size ≤ life.started) :
    Started creates (PoolLife.call { life with pool := pool } joined) := by
  obtain ⟨started, startResult, _, joinCalls⟩ :=
    call_started { life with pool := pool } joined
  constructor
  · intro w
    rw [startResult, started]
    exact begun.startResult w
  · intro w
    rw [call_created, started]
    exact begun.created w
  · intro w member
    rw [joinCalls, List.mem_append, Option.mem_toList] at member
    rw [started]
    rcases member with earlier | now
    · exact begun.joins w earlier
    · exact w.isLt.trans_le (finished (Option.ne_none_iff_exists'.mpr ⟨w, now⟩))

/-- The constructor starts one more worker. -/
theorem Started.start (begun : Started creates life) (outcomes : ∀ w, 0 ≤ creates w) {w : Fin size}
    (here : w.val = life.started) : Started creates (life.effect creates (.start w)) := by
  have below : ∀ other : Fin size, other ≠ w →
      (other.val < life.started + 1 ↔ other.val < life.started) := by
    intro other different
    have apart := Fin.val_ne_of_ne different
    omega
  have new : w.val < life.started + 1 := here ▸ Nat.lt_succ_self _
  simp only [effect, Thread.start_eq (outcomes w)]
  constructor
  · intro other
    dsimp only
    by_cases same : other = w
    · rw [same, Function.update_self, if_pos new]
    · rw [Function.update_of_ne same, begun.startResult other]
      simp only [below other same]
  · intro other
    dsimp only
    by_cases same : other = w
    · rw [same, Function.update_self]
      simp only [new, true_and]
    · rw [Function.update_of_ne same, begun.created other]
      simp only [below other same]
  · intro other member
    exact Nat.lt_succ_of_lt (begun.joins other member)

theorem Started.step (begun : Started creates life) (outcomes : ∀ w, 0 ≤ creates w)
    (taken : (machine creates).step life action = some next) : Started creates next := by
  obtain ⟨enabled, rfl⟩ := machine_step.mp taken
  cases action with
  | start w => exact begun.start outcomes enabled
  | pool action =>
      apply begun.call
      intro joined
      have takes := enabled.1
      unfold Takes at takes
      cases action <;> first | exact absurd rfl joined | exact takes
  | joinNone c final i =>
      apply begun.call
      intro _
      exact enabled.1

/-! ## How often a worker is joined -/

/-- In `shutdown()`, from the read of `mIsShutdown` as false to the last join. -/
def Shutting : CallerPc → Prop
  | .setting _ | .broadcasting _ | .joining _ _ => True
  | .idle | .signalling _ | .testing _ | .finalizing _ | .handlingFinal _ | .destructing
  | .deleting _ | .destroyed => False

theorem shutting_of_joining {pc : CallerPc} (joining : pc.Joining) : Shutting pc := by
  cases pc with
  | broadcasting | joining => trivial
  | _ => exact joining.elim

/-- At most one caller shuts the pool down, and it calls `join()` in the order of
the workers. -/
structure JoinsOnce (life : PoolLife size callers) : Prop where
  once : life.joinCalls.Nodup
  one : ∀ c c', Shutting (life.pool.caller c) → Shutting (life.pool.caller c') → c = c'
  unset : life.pool.mIsShutdown = false →
    life.joinCalls = [] ∧ ∀ c, ¬ (life.pool.caller c).Joining
  setting : ∀ c final, life.pool.caller c = .setting final → life.pool.mIsShutdown = false
  broadcasting : ∀ c final, life.pool.caller c = .broadcasting final → life.joinCalls = []
  joining : ∀ c final i, life.pool.caller c = .joining final i →
    ∀ w ∈ life.joinCalls, w.val ≤ i

theorem joinsOnce_initial : (initial size callers).JoinsOnce where
  once := List.nodup_nil
  one _ _ := False.elim
  unset _ := ⟨rfl, fun _ => id⟩
  setting _ _ := nofun
  broadcasting _ _ := nofun
  joining _ _ _ := nofun

/-- A step that takes no caller into the shutdown or further in it. -/
theorem JoinsOnce.quiet (joins : life.JoinsOnce)
    (flag : next.pool.mIsShutdown = life.pool.mIsShutdown)
    (callers : ∀ c, next.pool.caller c = life.pool.caller c ∨ ¬ Shutting (next.pool.caller c))
    (calls : next.joinCalls = life.joinCalls) : next.JoinsOnce := by
  have before : ∀ c, Shutting (next.pool.caller c) → next.pool.caller c = life.pool.caller c :=
    fun c inside => (callers c).resolve_right (not_not_intro inside)
  constructor
  · rw [calls]
    exact joins.once
  · intro c c' inside inside'
    rw [before c inside] at inside
    rw [before c' inside'] at inside'
    exact joins.one c c' inside inside'
  · intro unset
    rw [flag] at unset
    obtain ⟨none, outside⟩ := joins.unset unset
    refine ⟨calls.trans none, fun c inside => outside c ?_⟩
    rw [before c (shutting_of_joining inside)] at inside
    exact inside
  · intro c final here
    rw [flag]
    exact joins.setting c final (before c (by rw [here]; trivial) ▸ here)
  · intro c final here
    rw [calls]
    exact joins.broadcasting c final (before c (by rw [here]; trivial) ▸ here)
  · intro c final i here
    rw [calls]
    exact joins.joining c final i (before c (by rw [here]; trivial) ▸ here)

/-- The caller that shuts the pool down, if there is one, moves to `pc`. -/
theorem joinsOnce_of_move {c : Fin callers} {pc : CallerPc}
    (alone : ∀ other, Shutting (life.pool.caller other) → other = c)
    (moved : next.pool.caller = life.pool.goCaller c pc) (once : next.joinCalls.Nodup)
    (unset : next.pool.mIsShutdown = false → next.joinCalls = [] ∧ ¬ pc.Joining)
    (setting : ∀ final, pc = .setting final → next.pool.mIsShutdown = false)
    (broadcasting : ∀ final, pc = .broadcasting final → next.joinCalls = [])
    (joining : ∀ final i, pc = .joining final i → ∀ w ∈ next.joinCalls, w.val ≤ i) :
    next.JoinsOnce := by
  have here : next.pool.caller c = pc := by
    rw [moved]
    exact Function.update_self ..
  have only : ∀ other, Shutting (next.pool.caller other) → other = c := by
    intro other inside
    by_contra different
    rw [moved, WorkerPool.goCaller, Function.update_of_ne different] at inside
    exact different (alone other inside)
  have at_pc : ∀ {other place}, next.pool.caller other = place → Shutting place → pc = place := by
    rintro other place rfl inside
    rw [only other inside, here]
  constructor
  · exact once
  · intro c c' inside inside'
    exact (only c inside).trans (only c' inside').symm
  · intro running
    refine ⟨(unset running).1, fun other inside => ?_⟩
    rw [← at_pc rfl (shutting_of_joining inside)] at inside
    exact (unset running).2 inside
  · exact fun other final there => setting final (at_pc there trivial)
  · exact fun other final there => broadcasting final (at_pc there trivial)
  · exact fun other final i there => joining final i (at_pc there trivial)

/-- A move to a place outside the shutdown. -/
theorem goCaller_quiet (pool : WorkerPool size callers) (c : Fin callers) {pc : CallerPc}
    (outside : ¬ Shutting pc) (other : Fin callers) :
    pool.goCaller c pc other = pool.caller other ∨ ¬ Shutting (pool.goCaller c pc other) := by
  by_cases same : other = c
  · right
    rw [same, WorkerPool.goCaller, Function.update_self]
    exact outside
  · exact Or.inl (Function.update_of_ne same ..)

/-- The join loop goes on to index `i`, behind all workers that have been joined. -/
theorem JoinsOnce.extend (joins : life.JoinsOnce) {i : Nat}
    (behind : ∀ w ∈ life.joinCalls, w.val < i) :
    (life.joinCalls ++ (WorkerPool.Action.workerAt i).toList).Nodup ∧
      ∀ w ∈ life.joinCalls ++ (WorkerPool.Action.workerAt i).toList, w.val ≤ i := by
  constructor
  · rw [List.nodup_append]
    have single : (WorkerPool.Action.workerAt i : Option (Fin size)).toList.Nodup := by
      cases WorkerPool.Action.workerAt i with
      | none => exact List.nodup_nil
      | some w => exact List.nodup_singleton w
    refine ⟨joins.once, single, fun w earlier other now same => ?_⟩
    have low := behind w earlier
    have index := WorkerPool.Action.eq_of_mem_workerAt (Option.mem_toList.mp now)
    rw [same, index] at low
    exact absurd low (lt_irrefl i)
  · intro w member
    rcases List.mem_append.mp member with earlier | now
    · exact (behind w earlier).le
    · exact (WorkerPool.Action.eq_of_mem_workerAt (Option.mem_toList.mp now)).le

/-- Whoever joins workers has set the flag. -/
theorem JoinsOnce.isShutdown (joins : life.JoinsOnce) {c : Fin callers}
    (joining : (life.pool.caller c).Joining) : life.pool.mIsShutdown = true := by
  cases running : life.pool.mIsShutdown with
  | true => rfl
  | false => exact absurd joining ((joins.unset running).2 c)

/-- The join loop comes to index `i`. -/
theorem JoinsOnce.advance (joins : life.JoinsOnce) {c : Fin callers} {final : Option Request}
    {i : Nat} (joining : (life.pool.caller c).Joining) (behind : ∀ w ∈ life.joinCalls, w.val < i)
    {pool : WorkerPool size callers} (flag : pool.mIsShutdown = life.pool.mIsShutdown)
    (moved : pool.caller = life.pool.goCaller c (.joining final i)) :
    JoinsOnce (call { life with pool := pool } (WorkerPool.Action.workerAt i)) := by
  obtain ⟨_, _, same, calls⟩ :=
    call_started { life with pool := pool } (WorkerPool.Action.workerAt i)
  change _ = pool at same
  obtain ⟨once, reached⟩ := joins.extend behind
  rw [← same] at moved flag
  refine joinsOnce_of_move
    (fun other there => joins.one other c there (shutting_of_joining joining)) moved ?_ ?_ nofun
    nofun ?_
  · rw [calls]
    exact once
  · intro unset
    rw [flag, joins.isShutdown joining] at unset
    cases unset
  · intro final' index there w member
    cases there
    rw [calls] at member
    exact reached w member

/-- A read of `mIsShutdown` in `shutdown()`. -/
theorem JoinsOnce.testShutdown (joins : life.JoinsOnce) {c : Fin callers} {final : Option Request}
    (serial : life.Serial (.pool (.testShutdown c final))) :
    JoinsOnce { life with pool := life.pool.effect (.testShutdown c final) } := by
  cases running : life.pool.mIsShutdown with
  | true =>
      refine joins.quiet rfl (goCaller_quiet life.pool c ?_) rfl
      rw [running, if_pos rfl]
      cases final <;> exact id
  | false =>
      obtain ⟨none, outside⟩ := joins.unset running
      have nobody : ∀ other, ¬ Shutting (life.pool.caller other) := by
        intro other inside
        have away := outside other
        have apart := serial other
        generalize life.pool.caller other = pc at inside away apart
        cases pc with
        | setting final => exact apart final rfl
        | broadcasting | joining => exact away trivial
        | _ => exact inside
      have moved : (life.pool.effect (.testShutdown c final)).caller =
          life.pool.goCaller c (.setting final) := by
        simp only [WorkerPool.effect, running, Bool.false_eq_true, if_false]
      exact joinsOnce_of_move (fun other inside => absurd inside (nobody other)) moved joins.once
        (fun _ => ⟨none, id⟩) (fun _ _ => running) (fun _ there => by cases there)
        (fun _ _ there => by cases there)

/-- The write of `mIsShutdown`. -/
theorem JoinsOnce.setShutdown (joins : life.JoinsOnce) {c : Fin callers} {final : Option Request}
    (here : life.pool.caller c = .setting final) :
    JoinsOnce { life with pool := life.pool.effect (.setShutdown c final) } := by
  have none := (joins.unset (joins.setting c final here)).1
  refine joinsOnce_of_move (fun other inside => joins.one other c inside ?_) rfl joins.once nofun
    nofun (fun _ _ => none) nofun
  rw [here]
  trivial

/-- The join loop begins. -/
theorem JoinsOnce.broadcast (joins : life.JoinsOnce) {c : Fin callers} {final : Option Request}
    (here : life.pool.caller c = .broadcasting final) :
    JoinsOnce (call { life with pool := life.pool.effect (.broadcast c final) }
      (WorkerPool.Action.workerAt 1)) := by
  refine joins.advance (c := c) (by rw [here]; trivial) ?_ rfl rfl
  rw [joins.broadcasting c final here]
  nofun

/-- One more worker has been joined. -/
theorem JoinsOnce.join (joins : life.JoinsOnce) {c : Fin callers} {final : Option Request}
    {i : Fin size} (here : life.pool.caller c = .joining final i) :
    JoinsOnce (call { life with pool := life.pool.effect (.join c final i) }
      (WorkerPool.Action.workerAt (i + 1))) := by
  refine joins.advance (c := c) (by rw [here]; trivial) (fun w member => ?_) rfl rfl
  exact Nat.lt_succ_of_le (joins.joining c final i here w member)

/-- `process()` is entered. -/
theorem JoinsOnce.process (joins : life.JoinsOnce) (c : Fin callers) (request : Request) :
    JoinsOnce { life with pool := life.pool.effect (.process c request) } := by
  by_cases kind : request.getType = .shutdown
  · rw [WorkerPool.effect_process_shutdown life.pool c kind]
    exact joins.quiet rfl (goCaller_quiet life.pool c id) rfl
  · rw [WorkerPool.effect_process_push life.pool c kind]
    exact joins.quiet rfl (goCaller_quiet life.pool c id) rfl

theorem JoinsOnce.step (joins : life.JoinsOnce) (serial : life.Serial action)
    (taken : (machine creates).step life action = some next) : next.JoinsOnce := by
  obtain ⟨enabled, rfl⟩ := machine_step.mp taken
  cases action with
  | start w => exact joins.quiet rfl (fun _ => Or.inl rfl) rfl
  | joinNone c final i => exact joins.join enabled.2.1
  | pool action =>
      obtain ⟨_, enabled⟩ := enabled
      cases action with
      | testShutdown c final => exact joins.testShutdown serial
      | setShutdown c final => exact joins.setShutdown enabled
      | broadcast c final => exact joins.broadcast enabled
      | join c final i => exact joins.join enabled.1
      | process c request => exact joins.process c request
      | testDestruct c =>
          refine joins.quiet rfl (goCaller_quiet life.pool c ?_) rfl
          split <;> exact id
      | joinEnd c final i =>
          refine joins.quiet rfl (goCaller_quiet life.pool c ?_) rfl
          cases final <;> exact id
      | signal c | callFinal c | finishFinal c | destruct c | deleteWorker c | destroyQueue c =>
          exact joins.quiet rfl (goCaller_quiet life.pool c id) rfl
      | _ => exact joins.quiet rfl (fun _ => Or.inl rfl) rfl

/-! ## Whole runs -/

/-- In a run in which no two threads go into the shutdown together, `start()` and
`join()` are correct exactly when `pthread_create` has succeeded for every worker
that has been started. -/
theorem correct_iff (outcomes : ∀ w, 0 ≤ creates w) {actions : List (Action size callers)}
    (serial : (machine creates).Steps Serial (initial size callers) actions)
    (ran : (machine creates).run (initial size callers) actions = some life) :
    life.Correct ↔ ∀ w : Fin size, w.val < life.started → creates w = 0 := by
  have begun : Started creates life := (machine creates).run_invariant (Started creates)
    (fun _ _ _ begun _ => begun.step outcomes) started_initial
    ((machine creates).steps_true _ _) ran
  have joins : life.JoinsOnce := (machine creates).run_invariant JoinsOnce
    (fun _ _ _ joins serial => joins.step serial) joinsOnce_initial serial ran
  have created : ∀ w : Fin size, w.val < life.started →
      ((life.thread w).created = true ↔ creates w = 0) := by
    intro w inside
    rw [begun.created w, decide_eq_true_eq]
    exact and_iff_right inside
  constructor
  · intro correct w inside
    have result := begun.startResult w
    rw [if_pos inside] at result
    exact (created w inside).mp ((correct.starts w 0 result).mp rfl)
  · intro succeeded
    constructor
    · intro w result returned
      rw [begun.startResult w, Option.ite_none_right_eq_some] at returned
      obtain ⟨inside, same⟩ := returned
      exact iff_of_true (Option.some_inj.mp same).symm ((created w inside).mpr (succeeded w inside))
    · intro w member
      have inside := begun.joins w member
      exact (created w inside).mpr (succeeded w inside)
    · exact joins.once

/-- A pool of two workers is created, shut down in its destructor, and joined. -/
def joinedRun (w w' : Fin 2) (c : Fin 1) : List (Action 2 1) :=
  [.start w, .start w', .pool (.destruct c), .pool (.testDestruct c),
    .pool (.testShutdown c none), .pool (.setShutdown c none), .pool (.testWorker w'),
    .pool (.broadcast c none), .pool (.join c none w'), .pool (.joinEnd c none 2)]

theorem correct_iff_joined :
    ∃ life, (machine fun _ => 0).run (initial 2 1) (joinedRun 0 1 0) = some life ∧
      life.joinCalls = [1] ∧ life.Correct := by
  obtain ⟨life, ran, calls⟩ : ∃ life,
      (machine fun _ => 0).run (initial 2 1) (joinedRun 0 1 0) = some life ∧
        life.joinCalls = [1] := ⟨_, rfl, rfl⟩
  have serial : (machine fun _ => 0).Steps Serial (initial 2 1) (joinedRun 0 1 0) := by
    unfold joinedRun
    repeat rw [Machine.steps_cons _ rfl]
    refine ⟨trivial, trivial, trivial, trivial, fun c final => ?_, trivial, trivial, trivial,
      trivial, trivial, trivial⟩
    obtain rfl : c = 0 := Subsingleton.elim c 0
    nofun
  exact ⟨life, ran, calls, (correct_iff (fun _ => le_rfl) serial ran).mpr fun _ _ => rfl⟩

/-- `EAGAIN`: the system has no room for another thread. -/
def EAGAIN : Int := 11

/-- Another `Shutdown` request. -/
def otherShutdown : Request := { WorkerPool.sampleShutdown with address := 2 }

/-- Two threads are in `shutdown()` and have both read `mIsShutdown` as false. -/
def together (w w' : Fin 2) (c c' : Fin 2) : List (Action 2 2) :=
  [.start w, .start w', .pool (.process c WorkerPool.sampleShutdown),
    .pool (.process c' otherShutdown), .pool (.testShutdown c (some WorkerPool.sampleShutdown)),
    .pool (.testShutdown c' (some otherShutdown)),
    .pool (.setShutdown c (some WorkerPool.sampleShutdown)),
    .pool (.setShutdown c' (some otherShutdown)),
    .pool (.broadcast c (some WorkerPool.sampleShutdown)),
    .pool (.broadcast c' (some otherShutdown))]

/-- The second worker gets no thread: `start()` returns 0 for it all the same, and
the destructor of the pool calls `join()` on it. And two threads that shut the
pool down together both call `join()` on it when it has a thread. -/
theorem joined_uncreated_or_twice :
    (∃ life, (machine fun w => if w = 1 then EAGAIN else 0).run (initial 2 1)
        [.start 0, .start 1, .pool (.destruct 0), .pool (.testDestruct 0),
          .pool (.testShutdown 0 none), .pool (.setShutdown 0 none),
          .pool (.broadcast 0 none)] = some life ∧
      life.startResult 1 = some 0 ∧ (life.thread 1).created = false ∧ life.joinCalls = [1] ∧
      ¬ life.Correct) ∧
    ∃ life, (machine fun _ => 0).run (initial 2 2) (together 0 1 0 1) = some life ∧
      life.joinCalls = [1, 1] ∧ ¬ life.Correct := by
  refine ⟨⟨_, rfl, rfl, rfl, rfl, fun correct => ?_⟩, ⟨_, rfl, rfl, fun correct => ?_⟩⟩
  · cases correct.joins 1 (List.mem_singleton_self _)
  · exact absurd correct.once (by decide)

end PoolLife

end MSrv
